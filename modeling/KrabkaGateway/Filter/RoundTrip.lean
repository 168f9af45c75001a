import KrabkaGateway.Filter.Conjunction

/-!
# Filters as texts

A predicate written as field, operator and literal, and predicates joined by `AND`.
What is written is parsed again as it was.
-/

namespace KrabkaGateway.Filter

open Lib Lib.Quoted

def FilterValue.text (floats : Floats) : FilterValue → List Char
  | .string value => quoteText value.toList
  | .number (.integer value) => Lib.Json.renderInt value
  | .number (.float value) => floats.display value
  | .bool value => (toString value).toList
  | .null => "null".toList

def Predicate.text (floats : Floats) (predicate : Predicate) : List Char :=
  comparisonText predicate.field.asTopLevelName.toList predicate.operator
    (predicate.expected.text floats)

/-- The predicates with `AND` between them. -/
def filterText (floats : Floats) (predicates : List Predicate) : List Char :=
  " AND ".toList.intercalate (predicates.map (Predicate.text floats))

/-- A predicate that a text can hold: its field is an identifier other than `AND`, its literal is no
floating point number, and only strings and numbers are ordered. -/
structure Predicate.Writable (predicate : Predicate) : Prop where
  single : predicate.field = ⟨[predicate.field.asTopLevelName]⟩
  identifier : isIdentifier predicate.field.asTopLevelName.toList = true
  notAnd : eqIgnoreAsciiCase predicate.field.asTopLevelName.toList andWord = false
  literal : match predicate.expected with
    | .number (.integer value) => -2 ^ 63 ≤ value ∧ value < 2 ^ 64
    | .number (.float _) => False
    | _ => True
  ordered : predicate.operator.isOrdered = true →
    match predicate.expected with
    | .string _ | .number _ => True
    | _ => False

variable {predicate : Predicate}

theorem Predicate.Writable.literal_text (writable : predicate.Writable) (floats : Floats) :
    ∃ bare tail, predicate.expected.text floats = bare ++ tail ∧
      Literal floats bare tail predicate.expected := by
  have range := writable.literal
  cases shape : predicate.expected with
  | string value =>
    refine ⟨[], quoteText value.toList, rfl, ?_⟩
    simpa using literal_quoted floats value.toList
  | number value =>
    cases value with
    | integer value =>
      rw [shape] at range
      exact ⟨Lib.Json.renderInt value, [], (List.append_nil _).symm,
        literal_integer floats ⟨value, range⟩⟩
    | float value =>
      rw [shape] at range
      exact range.elim
  | bool value => exact ⟨(toString value).toList, [], (List.append_nil _).symm,
      literal_bool floats value⟩
  | null => exact ⟨"null".toList, [], (List.append_nil _).symm, literal_null floats⟩

theorem Predicate.Writable.accepts (writable : predicate.Writable) :
    predicate.operator.acceptsLiteral predicate.expected = true := by
  by_cases isOrdered : predicate.operator.isOrdered = true
  · have allowed := writable.ordered isOrdered
    cases shape : predicate.expected with
    | string | number => simp [ComparisonOperator.acceptsLiteral]
    | bool | null =>
      rw [shape] at allowed
      exact allowed.elim
  · simp [ComparisonOperator.acceptsLiteral, isOrdered]

theorem parseLegacyPredicates_text (floats : Floats) (arrow : Bool)
    (writable : predicate.Writable) :
    parseLegacyPredicates floats arrow (predicate.text floats) = .ok [predicate] := by
  obtain ⟨bare, tail, text, literal⟩ := writable.literal_text floats
  let written : Comparison floats :=
    { segments := [predicate.field.asTopLevelName.toList]
      operator := predicate.operator
      bare, tail
      expected := predicate.expected
      path := ⟨List.cons_ne_nil _ _, by simpa using writable.identifier⟩
      literal
      accepted := writable.accepts }
  have same : predicate.text floats = written.text := by
    rw [Predicate.text, text]
    simp [written, Comparison.text, Comparison.field, Comparison.value, dotted]
  have parsed := written.parsePredicate_text arrow
  rw [if_pos (show written.segments.length = 1 from rfl)] at parsed
  rw [same, written.parseLegacyPredicates_text arrow (by simpa [written] using writable.notAnd),
    parsed]
  simp [written, Except.map, ← writable.single]

theorem filterText_cons_cons (floats : Floats) (first second : Predicate) (rest : List Predicate) :
    filterText floats (first :: second :: rest) =
      conjunctionText (first.text floats) (filterText floats (second :: rest)) := by
  simp [filterText, conjunctionText, List.intercalate]

/-- Predicates that are written and parsed again are the same. -/
theorem filter_text_round_trip (floats : Floats) (arrow : Bool) {predicates : List Predicate}
    (nonempty : predicates ≠ []) (writable : ∀ predicate ∈ predicates, predicate.Writable) :
    parseLegacyPredicates floats arrow (filterText floats predicates) = .ok predicates := by
  induction predicates with
  | nil => exact absurd rfl nonempty
  | cons predicate others ih =>
    have first := parseLegacyPredicates_text floats arrow (writable predicate List.mem_cons_self)
    cases others with
    | nil =>
      rw [filterText, List.map_singleton, List.intercalate_singleton]
      exact first
    | cons next rest =>
      have later := ih (List.cons_ne_nil _ _)
        fun other listed => writable other (List.mem_cons_of_mem _ listed)
      rw [filterText_cons_cons]
      exact parseLegacyPredicates_conjunction first later

theorem orders_round_trip :
    parseLegacyPredicates exactFloats true
        (filterText exactFloats [largeOrders, namedOrders]) = .ok [largeOrders, namedOrders] := by
  have large : largeOrders.Writable :=
    ⟨rfl, by decide, by decide,
      show -2 ^ 63 ≤ (5 : Int) ∧ (5 : Int) < 2 ^ 64 by decide, fun _ => trivial⟩
  have named : namedOrders.Writable :=
    ⟨rfl, by decide, by decide, trivial, fun _ => trivial⟩
  exact filter_text_round_trip exactFloats true (List.cons_ne_nil _ _) (by
    intro predicate listed
    simp only [List.mem_cons, List.not_mem_nil, or_false] at listed
    obtain rfl | rfl := listed
    · exact large
    · exact named)

end KrabkaGateway.Filter
