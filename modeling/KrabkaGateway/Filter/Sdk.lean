import KrabkaGateway.Filter.Literals
import KrabkaGateway.Filter.Rows

/-!
# Filters of the SDK

The Rust SDK turns a filter into a text for the gateway, and its mock and the mock
adapter of the conformance suite evaluate the filter themselves. The three decisions
are compared on one document.
-/

namespace KrabkaGateway.Filter

open Lib.Quoted

/-- `Filter` of the SDK: the value expected at a path. -/
structure SdkFilter where
  path : String
  value : Value

namespace Sdk

def validFilterSegment (segment : List Char) : Bool :=
  isIdentifier segment

def gatewayFilterLiteral (floats : Floats) : Value → Except String (List Char)
  | .string value => .ok (quoteText value.toList)
  | .bool value => .ok (toString value).toList
  | .number (.integer value) => .ok (Lib.Json.renderInt value.value)
  | .number (.float value) => .ok (floats.display value)
  | .null => .ok "null".toList
  | .array _ | .object _ => .error "filter value must be a string, number, boolean, or null"

/-- The part of the path after `$.`. -/
def fieldOf (path : String) : Option (List Char) :=
  path.toList.dropPrefix? ['$', '.']

def toGatewayFilter (floats : Floats) (filter : SdkFilter) : Except String (List Char) :=
  match fieldOf filter.path with
  | none => .error "filter path must start with $."
  | some field =>
    if field.isEmpty || !(field.splitOn '.').all validFilterSegment then
      .error "filter path must contain identifier segments"
    else do
      let literal ← gatewayFilterLiteral floats filter.value
      return field ++ [' ', '=', ' '] ++ literal

/-- The value at a path of member names. -/
def follow (document : Value) (segments : List (List Char)) : Option Value :=
  segments.foldlM (fun value segment => value.get (String.ofList segment)) document

/-- The decision of the SDK's mock. -/
def filterMatches (read : Bytes → Option Value) (filter : Option SdkFilter) (value : Bytes) :
    Bool :=
  match filter with
  | none => true
  | some filter =>
    match read value with
    | none => false
    | some json =>
      match fieldOf filter.path with
      | none => false
      | some field =>
        (follow json (field.splitOn '.')).any fun found => found.equals filter.value

end Sdk

inductive FilterOp where
  | equals
  deriving DecidableEq

/-- `Filter` of the conformance protocol. -/
structure ConformanceFilter where
  path : String
  op : FilterOp
  value : Value

namespace Conformance

/-- The decision of the conformance suite's mock adapter. It looks the whole path up as one
name. -/
def filterMatches (read : Bytes → Option Value) (base64Decode : String → Option Bytes)
    (filter : Option ConformanceFilter) (valueB64 : String) : Bool :=
  match filter with
  | none => true
  | some filter =>
    if filter.op ≠ .equals then false
    else
      match (base64Decode valueB64).bind read with
      | none => false
      | some json =>
        match Sdk.fieldOf filter.path with
        | none => false
        | some field =>
          (json.get (String.ofList field)).any fun found => found.equals filter.value

end Conformance

/-! ## Where the decisions part -/

def filterValueOf : Value → Option FilterValue
  | .string value => some (.string value)
  | .bool value => some (.bool value)
  | .number (.integer value) => some (.number (.integer value.value))
  | .null => some .null
  | _ => none

/-- The gateway takes some values of other types for equal: a float and a numeric text for the
integer they come to, and an object that stands for a dictionary or enum value. -/
def looksEqual (floats : Floats) (expected : FilterValue) (found : Value) : Bool :=
  match expected, found with
  | .number (.integer expected), .number (.float actual) =>
    floats.ofInteger expected == actual
  | .number (.integer expected), .string actual =>
    (NumericValue.parse floats actual.toList).any fun actual =>
      (actual.compare floats (.integer expected)).isEq
  | expected, .object members =>
    (FieldValue.fromDictionaryLikeJson (.object members)).any
      (expected.matchesField floats .equal)
  | _, _ => false

/-- The gateway accepts the path. For one segment, the document has no value there that only looks
equal. For several, which the gateway never matches on JSON, the document has the expected value
neither at the path nor under the dotted name. -/
def decisionsAgree (floats : Floats) (arrow : Bool) (segments : List (List Char))
    (expected : Value) (document : Value) : Bool :=
  acceptsPath arrow segments &&
    match segments with
    | [segment] =>
      !(document.get (String.ofList segment)).any fun found =>
        (filterValueOf expected).any fun expected => looksEqual floats expected found
    | _ =>
      !((Sdk.follow document segments).any fun found => found.equals expected) &&
        !((document.get (String.ofList (dotted segments))).any fun found => found.equals expected)

variable {value : Value} {expected : FilterValue}

theorem literal_of_value (floats : Floats) (simple : filterValueOf value = some expected) :
    ∃ bare tail, Literal floats bare tail expected ∧
      Sdk.gatewayFilterLiteral floats value = .ok (bare ++ tail) := by
  cases value with
  | string text =>
    cases simple
    refine ⟨[], quoteText text.toList, ?_, rfl⟩
    have written := literal_quoted floats text.toList
    rwa [String.ofList_toList] at written
  | bool value =>
    cases simple
    exact ⟨_, [], literal_bool floats value, by simp [Sdk.gatewayFilterLiteral]⟩
  | null =>
    cases simple
    exact ⟨_, [], literal_null floats, by simp [Sdk.gatewayFilterLiteral]⟩
  | number value =>
    cases value with
    | integer value =>
      cases simple
      exact ⟨_, [], literal_integer floats value, by simp [Sdk.gatewayFilterLiteral]⟩
    | float value => contradiction
  | array | object => contradiction

theorem isEq_compare {α : Type} [Ord α] [Std.LawfulEqOrd α] [DecidableEq α] (left right : α) :
    (compare left right).isEq = (left == right) := by
  rw [Bool.eq_iff_iff, Ordering.isEq_iff_eq_eq, beq_iff_eq]
  exact Std.compare_eq_iff_eq

/-- On the value a document has at the name, the gateway's comparison differs from equality exactly
where it takes another value for equal. -/
theorem matches_eq_equals_iff (floats : Floats) (simple : filterValueOf value = some expected)
    (found : Value) :
    ((FieldValue.fromJson found).any (expected.matchesField floats .equal) = found.equals value) ↔
      looksEqual floats expected found = false := by
  cases value with
  | array | object => contradiction
  | string | bool | null =>
    cases simple
    rcases found with _ | _ | (_ | _) | _ | _ | _ <;>
      simp [FieldValue.fromJson, FieldValue.fromScalarJson, FieldValue.fromDictionaryLikeJson,
        Value.asObject, FilterValue.matchesField, Value.equals, ComparisonOperator.compareOrder,
        looksEqual, isEq_compare]
  | number value =>
    cases value with
    | float value => contradiction
    | integer value =>
      cases simple
      cases found with
      | number found =>
        cases found with
        | integer actual =>
          simp [FieldValue.fromJson, FieldValue.fromScalarJson, FilterValue.matchesField,
            Value.equals, ComparisonOperator.compareOrder, NumericValue.compare, looksEqual,
            isEq_compare]
          cases actual
          cases value
          simp
        | float actual =>
          simp [FieldValue.fromJson, FieldValue.fromScalarJson, FilterValue.matchesField,
            Value.equals, ComparisonOperator.compareOrder, NumericValue.compare,
            NumericValue.asF64, looksEqual, isEq_compare]
          exact not_congr eq_comm
      | _ =>
        simp [FieldValue.fromJson, FieldValue.fromScalarJson, FieldValue.fromDictionaryLikeJson,
          Value.asObject, FilterValue.matchesField, Value.equals, looksEqual,
          ComparisonOperator.compareOrder]

variable {floats : Floats}

/-- What the SDK accepts is the text of an equality. -/
theorem exists_equality {filter : SdkFilter} {text : List Char}
    (accepted : Sdk.toGatewayFilter floats filter = .ok text)
    (simple : filterValueOf filter.value = some expected) :
    ∃ written : Comparison floats, Sdk.fieldOf filter.path = some written.field ∧
      written.segments = written.field.splitOn '.' ∧ written.operator = .equal ∧
      written.expected = expected ∧ text = written.text := by
  obtain ⟨bare, tail, literal, value⟩ := literal_of_value floats simple
  rw [Sdk.toGatewayFilter] at accepted
  split at accepted
  · contradiction
  · rename_i field found
    split at accepted
    · contradiction
    · rename_i valid
      simp only [value, bind, Except.bind, pure, Except.pure, Except.ok.injEq] at accepted
      simp only [Bool.or_eq_true, Bool.not_eq_true', not_or, Bool.not_eq_true,
        Bool.not_eq_false, List.all_eq_true] at valid
      have whole : dotted (field.splitOn '.') = field := List.intercalate_splitOn '.'
      refine ⟨⟨field.splitOn '.', .equal, bare, tail, expected,
        ⟨List.splitOn_ne_nil _ _, valid.2⟩, literal, by simp [ComparisonOperator.acceptsLiteral,
          ComparisonOperator.isOrdered]⟩, ?_, ?_, rfl, rfl, ?_⟩
      · rw [Comparison.field, whole, found]
      · rw [Comparison.field, whole]
      · rw [← accepted, Comparison.text, Comparison.field, whole]
        simp [comparisonText, ComparisonOperator.token, Comparison.value]

/-- The gateway's decision on a document for one kept predicate. -/
theorem matchesStructuredJson_single {read : Bytes → Option Value} {sql segment : List Char}
    (filled : sql ≠ []) {bytes : Bytes} {document : Value} (parsed : read bytes = some document) :
    CompiledFilter.matchesStructuredJson floats read
        ⟨sql, [⟨⟨[String.ofList segment]⟩, .equal, expected⟩]⟩ (some bytes) =
      (document.get (String.ofList segment)).any fun found =>
        (FieldValue.fromJson found).any (expected.matchesField floats .equal) := by
  rw [matchesStructuredJson_eq floats read filled (List.cons_ne_nil _ _)]
  simp only [Option.bind_some, parsed, Option.any_some, List.all_cons, List.all_nil,
    Bool.and_true, Predicate.decides, FieldPath.asTopLevelName, List.headD_cons]
  cases document.get (String.ofList segment) <;> rfl

/-- The three decisions agree exactly where the gateway accepts the path and the document holds
nothing that it reads in another way. -/
theorem filter_decisions_agree_iff (floats : Floats) (arrow : Bool) {read : Bytes → Option Value}
    {base64Decode : String → Option Bytes} {filter : SdkFilter} {text : List Char}
    (accepted : Sdk.toGatewayFilter floats filter = .ok text)
    (simple : (filterValueOf filter.value).isSome = true) {bytes : Bytes} {valueB64 : String}
    (encoded : base64Decode valueB64 = some bytes) {document : Value}
    (parsed : read bytes = some document) {field : List Char}
    (path : Sdk.fieldOf filter.path = some field) :
    (∃ compiled, CompiledFilter.compile floats arrow text = .ok compiled ∧
        compiled.matchesStructuredJson floats read (some bytes) =
          Sdk.filterMatches read (some filter) bytes ∧
        Sdk.filterMatches read (some filter) bytes =
          Conformance.filterMatches read base64Decode
            (some ⟨filter.path, .equals, filter.value⟩) valueB64) ↔
      decisionsAgree floats arrow (field.splitOn '.') filter.value document = true := by
  obtain ⟨expected, value⟩ := Option.isSome_iff_exists.mp simple
  obtain ⟨written, same, segments, equality, literal, rfl⟩ := exists_equality accepted value
  obtain rfl : field = written.field := Option.some.inj (path.symm.trans same)
  have compiled := written.compile_text arrow
  have sdk : Sdk.filterMatches read (some filter) bytes =
      (Sdk.follow document written.segments).any fun found => found.equals filter.value := by
    simp [Sdk.filterMatches, parsed, path, segments]
  have adapter : Conformance.filterMatches read base64Decode
      (some ⟨filter.path, .equals, filter.value⟩) valueB64 =
        (document.get (String.ofList written.field)).any fun found =>
          found.equals filter.value := by
    simp [Conformance.filterMatches, encoded, parsed, path]
  rw [sdk, adapter, ← segments, decisionsAgree.eq_def]
  cases accepts : acceptsPath arrow written.segments with
  | false =>
    rw [accepts, if_neg (by decide)] at compiled
    obtain ⟨error, failed⟩ := compiled
    simp [failed]
  | true =>
    rw [accepts, if_pos rfl] at compiled
    simp only [compiled, Except.ok.injEq, exists_eq_left', Bool.true_and]
    rw [Comparison.predicates, Comparison.field]
    cases shape : written.segments with
    | nil => exact absurd shape written.path.nonempty
    | cons segment others =>
      cases others with
      | nil =>
        rw [equality, literal, matchesStructuredJson_single written.text_ne_nil parsed]
        simp only [Sdk.follow, List.foldlM_cons, List.foldlM_nil, value, Option.any_some, dotted,
          List.intercalate_singleton]
        cases document.get (String.ofList segment) with
        | none => simp
        | some found => simpa using matches_eq_equals_iff floats value found
      | cons second rest =>
        have never : CompiledFilter.matchesStructuredJson floats read ⟨written.text, []⟩
            (some bytes) = false := by
          have notEmpty : written.text.isEmpty = false := by simpa using written.text_ne_nil
          simp [CompiledFilter.matchesStructuredJson, notEmpty]
        simp only [never]
        cases (Sdk.follow document (segment :: second :: rest)).any fun found =>
            found.equals filter.value <;>
          cases (document.get (String.ofList (dotted (segment :: second :: rest)))).any fun found =>
            found.equals filter.value <;> simp

def exactFloats : Floats where
  parse := fun _ => none
  ofInteger := fun value => value
  display := fun _ => []

/-- The empty text stands for one document. -/
def readOnly (document : Value) : Bytes → Option Value :=
  fun bytes => if bytes = [] then some document else none

def emptyBase64 : String → Option Bytes :=
  fun text => if text = "" then some [] else none

def orderKind : Value :=
  .object [("kind", .string "it's")]

theorem filter_decisions_agree_on_quoted_kind :
    ∃ compiled, CompiledFilter.compile exactFloats true "kind = 'it''s'".toList = .ok compiled ∧
      compiled.matchesStructuredJson exactFloats (readOnly orderKind) (some []) =
        Sdk.filterMatches (readOnly orderKind) (some ⟨"$.kind", .string "it's"⟩) [] ∧
      Sdk.filterMatches (readOnly orderKind) (some ⟨"$.kind", .string "it's"⟩) [] =
        Conformance.filterMatches (readOnly orderKind) emptyBase64
          (some ⟨"$.kind", .equals, .string "it's"⟩) "" := by
  have accepted : Sdk.toGatewayFilter exactFloats ⟨"$.kind", .string "it's"⟩ =
      .ok "kind = 'it''s'".toList := by decide +kernel
  exact (filter_decisions_agree_iff exactFloats true accepted rfl rfl rfl rfl).mpr
    (by decide +kernel)

def nestedOrder : Value :=
  .object [("order", .object [("kind", .string "new")])]

/-- The SDK accepts a nested path and its mock follows it; the gateway accepts the text and never
matches it on JSON. -/
theorem nested_path_decisions_differ :
    ∃ text compiled,
      Sdk.toGatewayFilter exactFloats ⟨"$.order.kind", .string "new"⟩ = .ok text ∧
      CompiledFilter.compile exactFloats true text = .ok compiled ∧
      compiled.matchesStructuredJson exactFloats (readOnly nestedOrder) (some []) = false ∧
      Sdk.filterMatches (readOnly nestedOrder) (some ⟨"$.order.kind", .string "new"⟩) [] =
        true := by
  refine ⟨"order.kind = 'new'".toList, ⟨"order.kind = 'new'".toList, []⟩, ?_, ?_, ?_, ?_⟩ <;>
    decide +kernel

end KrabkaGateway.Filter
