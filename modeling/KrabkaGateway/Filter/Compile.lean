import KrabkaGateway.Filter.Value
import KrabkaGateway.Lib.Quoted
import KrabkaGateway.Lib.Text

/-!
# Compiling a subscription filter

The parser of `filter.rs` for a conjunction of comparisons, and the decision on a
JSON document. `arrow` says whether the gateway is built with Arrow: such a build
accepts texts that only DataFusion can evaluate and keeps no predicates for them.
-/

namespace KrabkaGateway.Filter

open Lib Lib.Quoted

inductive FilterCompileError where
  | unsupportedSql (detail : String)
  | dataFusionUnavailable (detail : String)
  | dataFusion (detail : String)
  deriving DecidableEq, Repr

structure FieldPath where
  segments : List String
  deriving DecidableEq, Repr

def FieldPath.asTopLevelName (path : FieldPath) : String :=
  path.segments.headD ""

structure Predicate where
  field : FieldPath
  operator : ComparisonOperator
  expected : FilterValue
  deriving DecidableEq

structure CompiledFilter where
  sql : List Char
  predicates : List Predicate
  deriving DecidableEq

/-! ## Characters and words -/

def isIdentifierChar (char : Char) : Bool :=
  char == '_' || char.isAlphanum

def isIdentifier : List Char → Bool
  | [] => false
  | first :: rest => (first == '_' || first.isAlpha) && rest.all isIdentifierChar

def eqIgnoreAsciiCase (left right : List Char) : Bool :=
  left.map Char.toLower == right.map Char.toLower

/-- A text as an error message shows it. -/
def shown (text : List Char) : String :=
  debugText text

/-- The word stands at this place, with no identifier character on either side. -/
def wordAt (same : List Char → List Char → Bool) (word : List Char) (mark : Mark) : Bool :=
  same (mark.rest.take word.length) word && !mark.previous.any isIdentifierChar &&
    !(mark.rest.drop word.length).head?.any isIdentifierChar

def startsWithFieldReference (field : List Char) (mark : Mark) : Bool :=
  wordAt (fun left right => left == right) field mark

def startsWithKeywordAt (keyword : List Char) (mark : Mark) : Bool :=
  wordAt eqIgnoreAsciiCase keyword mark

def reservedRowMarkerField : List Char := "__krabka_row_marker".toList

def sqlReferencesReservedRowMarker (sql : List Char) : Bool :=
  (scan none false sql).1.any (startsWithFieldReference reservedRowMarkerField)

def containsUnquotedWord (text word : List Char) : Bool :=
  (scan none false text).1.any (startsWithKeywordAt word)

def containsUnquotedChar (text : List Char) (target : Char) : Bool :=
  (scan none false text).1.any fun mark => mark.rest.head? == some target

def isDecimalLiteralPoint (mark : Mark) : Bool :=
  mark.previous.any Char.isDigit && (mark.rest.drop 1).head?.any Char.isDigit

def containsUnquotedFieldPathSeparator (text : List Char) : Bool :=
  (scan none false text).1.any fun mark =>
    mark.rest.head? == some '.' && !isDecimalLiteralPoint mark

def dataFusionWords : List (List Char) :=
  ["OR".toList, "IN".toList, "IS".toList, "LIKE".toList]

def sqlRequiresArrowDataFusion (sql : List Char) : Bool :=
  dataFusionWords.any (containsUnquotedWord sql) ||
    ['(', ')', '[', ']'].any (containsUnquotedChar sql) ||
    containsUnquotedFieldPathSeparator sql

/-! ## Predicates -/

def unterminated : FilterCompileError :=
  .unsupportedSql "unterminated string literal in filter"

/-- The place of the first occurrence outside quotes, counted in characters. -/
def findUnquotedToken (text token : List Char) : Except FilterCompileError (Option Nat) :=
  let (marks, quoted) := scan none false text
  match marks.find? fun mark => token.isPrefixOf mark.rest with
  | some mark => .ok (some (text.length - mark.rest.length))
  | none => if quoted then .error unterminated else .ok none

def rejectExtraOperator (clause literal : List Char) :
    List (List Char) → Except FilterCompileError Unit
  | [] => .ok ()
  | token :: tokens => do
      match ← findUnquotedToken literal token with
      | some _ =>
        .error (.unsupportedSql ("unsupported filter predicate " ++ shown clause ++
          ": expected exactly one comparison operator"))
      | none => rejectExtraOperator clause literal tokens

def operatorTokens : List (List Char × ComparisonOperator) :=
  [(['!', '='], .notEqual), (['>', '='], .greaterThanOrEqual), (['<', '='], .lessThanOrEqual),
    (['='], .equal), (['>'], .greaterThan), (['<'], .lessThan)]

/-- The operator of a clause with the texts before and after it: the first token of the list that
the clause has. -/
def ComparisonOperator.parse (clause : List Char) :
    List (List Char × ComparisonOperator) →
      Except FilterCompileError (ComparisonOperator × List Char × List Char)
  | [] =>
    .error (.unsupportedSql ("unsupported filter predicate " ++ shown clause ++
      ": expected one comparison operator (=, !=, >, >=, <, <=)"))
  | (token, operator) :: others => do
      match ← findUnquotedToken clause token with
      | none => ComparisonOperator.parse clause others
      | some index =>
        let literal := clause.drop (index + token.length)
        rejectExtraOperator clause literal (operatorTokens.map Prod.fst)
        return (operator, clause.take index, literal)

def FieldPath.parse (arrow : Bool) (input : List Char) : Except FilterCompileError FieldPath :=
  let segments := (input.splitOn '.').map trim
  if !segments.all isIdentifier then
    .error (.unsupportedSql ("unsupported filter field path " ++ shown input))
  else if segments.isEmpty then
    .error (.unsupportedSql "filter predicate requires a field name")
  else if segments.length ≠ 1 then
    if arrow then
      .error (.unsupportedSql
        "nested field predicates require Arrow/DataFusion schema compilation")
    else
      .error (.dataFusionUnavailable
        "nested field predicates require the gateway crate arrow feature")
  else .ok ⟨segments.map String.ofList⟩

def parseQuotedString (literal : List Char) : Except FilterCompileError (Option (List Char)) :=
  if literal.head? ≠ some quote then .ok none
  else if literal.getLast? ≠ some quote ∨ literal.length < 2 then
    .error (.unsupportedSql ("unterminated string literal " ++ shown literal))
  else .ok (some (unescape literal.tail.dropLast))

def FilterValue.parse (floats : Floats) (input : List Char) :
    Except FilterCompileError FilterValue := do
  let literal := trim input
  if eqIgnoreAsciiCase literal "true".toList then return .bool true
  if eqIgnoreAsciiCase literal "false".toList then return .bool false
  if eqIgnoreAsciiCase literal "null".toList then return .null
  match ← parseQuotedString literal with
  | some value => return .string (String.ofList value)
  | none =>
    match NumericValue.parse floats literal with
    | some value => return .number value
    | none => .error (.unsupportedSql ("unsupported filter literal " ++ shown literal))

def parsePredicate (floats : Floats) (arrow : Bool) (clause : List Char) :
    Except FilterCompileError Predicate :=
  if clause.isEmpty then .error (.unsupportedSql "filter contains an empty predicate")
  else do
    let (operator, field, literal) ← ComparisonOperator.parse clause operatorTokens
    let expected ← FilterValue.parse floats (trim literal)
    if !operator.acceptsLiteral expected then
      .error (.unsupportedSql ("unsupported filter predicate " ++ shown clause ++
        ": ordered comparisons require numeric or string literals"))
    else
      let field ← FieldPath.parse arrow (trim field)
      return { field, operator, expected }

def andWord : List Char := "AND".toList

/-- The clauses between the places of the word `AND`. -/
def clausesFrom (sql : List Char) : Nat → List Nat → List (List Char)
  | start, [] => [sql.drop start]
  | start, index :: later => (sql.take index).drop start :: clausesFrom sql (index + 3) later

def splitAndClauses (sql : List Char) : Except FilterCompileError (List (List Char)) :=
  let (marks, quoted) := scan none false sql
  if quoted then .error unterminated
  else
    .ok (clausesFrom sql 0 ((marks.filter (startsWithKeywordAt andWord)).map fun mark =>
      sql.length - mark.rest.length))

def parseLegacyPredicates (floats : Floats) (arrow : Bool) (sql : List Char) :
    Except FilterCompileError (List Predicate) := do
  let clauses ← splitAndClauses sql
  clauses.mapM fun clause => parsePredicate floats arrow (trim clause)

def CompiledFilter.compile (floats : Floats) (arrow : Bool) (text : List Char) :
    Except FilterCompileError CompiledFilter :=
  let sql := trim text
  if sql.isEmpty then .ok { sql := [], predicates := [] }
  else if sqlReferencesReservedRowMarker sql then
    .error (.unsupportedSql ("filter field " ++ shown reservedRowMarkerField ++
      " is reserved for internal row-count preservation"))
  else if !arrow && sqlRequiresArrowDataFusion sql then
    .error (.dataFusionUnavailable "complex SQL predicates require Arrow/DataFusion support")
  else
    match parseLegacyPredicates floats arrow sql with
    | .ok predicates => .ok { sql, predicates }
    | .error error =>
      if arrow && sqlRequiresArrowDataFusion sql then .ok { sql, predicates := [] }
      else .error error

/-! ## The decision on a document -/

def rowOf (value : Value) (predicates : List Predicate) : Option (List (String × FieldValue)) := do
  let members ← value.asObject
  let fields ← predicates.mapM fun predicate =>
    let name := predicate.field.asTopLevelName
    match members.lookup name with
    | none => some none
    | some value => (FieldValue.fromJson value).map fun field => some (name, field)
  return fields.reduceOption

def Predicate.matchesRow (floats : Floats) (predicate : Predicate)
    (row : List (String × FieldValue)) : Bool :=
  (row.lookup predicate.field.asTopLevelName).any
    (predicate.expected.matchesField floats predicate.operator)

def CompiledFilter.matchesStructuredJson (floats : Floats) (read : Bytes → Option Value)
    (filter : CompiledFilter) (json : Option Bytes) : Bool :=
  if filter.sql.isEmpty then true
  else if filter.predicates.isEmpty then false
  else
    match json.bind read with
    | none => false
    | some value =>
      match rowOf value filter.predicates with
      | none => false
      | some row => filter.predicates.all fun predicate => predicate.matchesRow floats row

end KrabkaGateway.Filter
