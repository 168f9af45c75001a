import Mathlib.Algebra.Order.Ring.Unbundled.Rat
import KrabkaGateway.Types

/-!
# Values a subscription filter compares

JSON documents as `serde_json` keeps them, the scalars a filter reads from a
document and the comparison of `filter.rs`. The arithmetic of 64-bit floating point
numbers is a library: a finite one is the rational number it stands for.
-/

namespace KrabkaGateway.Filter

/-- An integer of a JSON document: a `u64` or a negative `i64`. -/
structure Integer64 where
  value : Int
  fits : -2 ^ 63 ≤ value ∧ value < 2 ^ 64
  deriving DecidableEq

inductive Number where
  | integer (value : Integer64)
  | float (value : Rat)
  deriving DecidableEq

inductive Value where
  | null
  | bool (value : Bool)
  | number (value : Number)
  | string (value : String)
  | array (items : List Value)
  | object (members : List (String × Value))

namespace Value

mutual

def equals : Value → Value → Bool
  | .null, .null => true
  | .bool left, .bool right => left == right
  | .number left, .number right => left == right
  | .string left, .string right => left == right
  | .array left, .array right => itemsEqual left right
  | .object left, .object right => membersEqual left right
  | _, _ => false

def itemsEqual : List Value → List Value → Bool
  | [], [] => true
  | left :: lefts, right :: rights => left.equals right && itemsEqual lefts rights
  | _, _ => false

/-- The members of an object are kept in the order of their names. -/
def membersEqual : List (String × Value) → List (String × Value) → Bool
  | [], [] => true
  | (leftName, left) :: lefts, (rightName, right) :: rights =>
    leftName == rightName && left.equals right && membersEqual lefts rights
  | _, _ => false

end

def asObject : Value → Option (List (String × Value))
  | .object members => some members
  | _ => none

def asStr : Value → Option String
  | .string text => some text
  | _ => none

def get (value : Value) (name : String) : Option Value :=
  value.asObject.bind fun members => members.lookup name

end Value

/-- The parts of the `f64` arithmetic that filters use. `parse` gives finite numbers only. -/
structure Floats where
  parse : List Char → Option Rat
  ofInteger : Int → Rat
  display : Rat → List Char

inductive NumericValue where
  | integer (value : Int)
  | float (value : Rat)
  deriving DecidableEq

inductive FilterValue where
  | string (value : String)
  | number (value : NumericValue)
  | bool (value : Bool)
  | null
  deriving DecidableEq

inductive FieldValue where
  | string (value : String)
  | number (value : NumericValue)
  | bool (value : Bool)
  | null
  deriving DecidableEq

inductive ComparisonOperator where
  | equal
  | notEqual
  | greaterThan
  | greaterThanOrEqual
  | lessThan
  | lessThanOrEqual
  deriving DecidableEq, Repr

namespace ComparisonOperator

def compareOrder (operator : ComparisonOperator) (ordering : Ordering) : Bool :=
  match operator with
  | .equal => ordering.isEq
  | .notEqual => !ordering.isEq
  | .greaterThan => ordering.isGT
  | .greaterThanOrEqual => ordering.isGE
  | .lessThan => ordering.isLT
  | .lessThanOrEqual => ordering.isLE

def isOrdered : ComparisonOperator → Bool
  | .equal | .notEqual => false
  | _ => true

def acceptsLiteral (operator : ComparisonOperator) (literal : FilterValue) : Bool :=
  !operator.isOrdered ||
    match literal with
    | .string _ | .number _ => true
    | _ => false

end ComparisonOperator

/-! ## Numbers -/

/-- A nonempty run of decimal digits. -/
def parseDigits (text : List Char) : Option Int :=
  if text ≠ [] ∧ text.all Char.isDigit then some (Int.ofNat (Nat.ofDigitChars 10 text 0))
  else none

def parseI64 (text : List Char) : Option Int :=
  let value : Option Int :=
    match text with
    | '-' :: digits => (parseDigits digits).map fun value => -value
    | '+' :: digits => parseDigits digits
    | _ => parseDigits text
  value.filter fun value => decide (-2 ^ 63 ≤ value ∧ value < 2 ^ 63)

def parseU64 (text : List Char) : Option Int :=
  let value : Option Int :=
    match text with
    | '+' :: digits => parseDigits digits
    | _ => parseDigits text
  value.filter fun value => decide (value < 2 ^ 64)

namespace NumericValue

def parse (floats : Floats) (text : List Char) : Option NumericValue :=
  if text.any fun char => char == '.' || char == 'e' || char == 'E' then
    (floats.parse text).map .float
  else ((parseI64 text).or (parseU64 text)).map .integer

def asF64 (floats : Floats) : NumericValue → Rat
  | .integer value => floats.ofInteger value
  | .float value => value

def compare (floats : Floats) (left right : NumericValue) : Ordering :=
  match left, right with
  | .integer left, .integer right => Ord.compare left right
  | left, right => Ord.compare (left.asF64 floats) (right.asF64 floats)

end NumericValue

/-! ## Fields of a document -/

namespace FieldValue

def fromScalarJson : Value → Option FieldValue
  | .string text => some (.string text)
  | .number (.integer value) => some (.number (.integer value.value))
  | .number (.float value) => some (.number (.float value))
  | .bool value => some (.bool value)
  | .null => some .null
  | .array _ | .object _ => none

def unknownEnumName : Value → Option FieldValue
  | .number (.integer index) =>
    if 0 ≤ index.value ∧ index.value < 2 ^ 63 then
      some (.string ("UNKNOWN_" ++ toString index.value))
    else none
  | _ => none

/-- Dictionary and enum values are written as objects with a `$type`. -/
def fromDictionaryLikeJson (value : Value) : Option FieldValue :=
  match value.asObject with
  | none => none
  | some members =>
    let kind := (members.lookup "$type").bind Value.asStr
    if kind = some "dictionary" then (members.lookup "value").bind fromScalarJson
    else if kind = some "enum" then
      match members.lookup "name" with
      | some name => fromScalarJson name
      | none => (members.lookup "number").bind unknownEnumName
    else none

def fromJson (value : Value) : Option FieldValue :=
  (fromScalarJson value).or (fromDictionaryLikeJson value)

end FieldValue

/-! ## Comparison -/

namespace FilterValue

def matchesField (floats : Floats) (expected : FilterValue) (operator : ComparisonOperator)
    (actual : FieldValue) : Bool :=
  match expected, actual with
  | .string expected, .string actual => operator.compareOrder (Ord.compare actual expected)
  | .number expected, .number actual => operator.compareOrder (actual.compare floats expected)
  | .number expected, .string actual =>
    (NumericValue.parse floats actual.toList).any fun actual =>
      operator.compareOrder (actual.compare floats expected)
  | .bool expected, .bool actual =>
    match operator with
    | .equal => actual == expected
    | .notEqual => actual != expected
    | _ => false
  | .null, .null => operator == .equal
  | .null, _ => operator == .notEqual
  | _, _ => false

end FilterValue

end KrabkaGateway.Filter
