import KrabkaGateway.Filter.Sdk
import KrabkaGateway.Lib.SqlText

/-!
# The reserved column

`compile` refuses a text that refers to the row marker. It looks for the name in its own
letters outside single quotes, while SQL folds words to lower case and has single quotes
inside quoted identifiers. A reference gets past the check in these two ways only.
-/

namespace KrabkaGateway.Filter

open Lib Lib.Quoted Lib.SqlText

def Recased (identifier : Identifier) : Prop :=
  identifier.column = reservedRowMarkerField ∧ identifier.name ≠ reservedRowMarkerField

/-- The identifier is the row marker and stands where the check takes the text for a string. -/
def Hidden (sql : List Char) (identifier : Identifier) : Prop :=
  identifier.name = reservedRowMarkerField ∧ identifier.mark ∉ (scan none false sql).1

/-- The check sees a row marker in its own letters at a place outside single quotes. -/
theorem referenced_of_visible {dialect : Dialect}
    (letters : ∀ char, isIdentifierChar char = true → dialect.word char = true) {sql : List Char}
    {identifier : Identifier} (listed : identifier ∈ identifiers dialect sql)
    (named : identifier.name = reservedRowMarkerField)
    (visible : identifier.mark ∈ (scan none false sql).1) :
    sqlReferencesReservedRowMarker sql = true := by
  have single : doubleQuote ∉ identifier.name := by
    rw [named]
    decide
  obtain ⟨after, rest, next, before⟩ := mark_of_mem_identifiers listed single
  have notIdentifier : ∀ char : Option Char, char.any dialect.word = false →
      char.any isIdentifierChar = false := by
    intro char outside
    cases char with
    | none => rfl
    | some char =>
      by_contra inside
      have isWord := letters char (by simpa using inside)
      simp [isWord] at outside
  rw [sqlReferencesReservedRowMarker, List.any_eq_true]
  refine ⟨identifier.mark, visible, ?_⟩
  rw [named] at rest
  simp only [startsWithFieldReference, wordAt, rest, List.take_left, List.drop_left,
    beq_self_eq_true,
    notIdentifier _ next, notIdentifier _ before]
  rfl

theorem unreferenced_of_compile {floats : Floats} {arrow : Bool} {text : List Char}
    {filter : CompiledFilter} (accepted : CompiledFilter.compile floats arrow text = .ok filter) :
    sqlReferencesReservedRowMarker (trim text) = false := by
  unfold CompiledFilter.compile at accepted
  dsimp only at accepted
  split at accepted
  · rename_i empty
    rw [List.isEmpty_iff.mp empty]
    rfl
  · split at accepted
    · cases accepted
    · rename_i unreferenced
      exact Bool.not_eq_true _ ▸ unreferenced

/-- A text that is accepted names the row marker nowhere exactly if it has the marker neither in
other letters nor at a place that the check takes for the inside of a string. -/
theorem row_marker_unnamed_iff (dialect : Dialect)
    (letters : ∀ char, isIdentifierChar char = true → dialect.word char = true) {floats : Floats}
    {arrow : Bool} {text : List Char} {filter : CompiledFilter}
    (accepted : CompiledFilter.compile floats arrow text = .ok filter) :
    (∀ identifier ∈ identifiers dialect (trim text),
        identifier.column ≠ reservedRowMarkerField) ↔
      ∀ identifier ∈ identifiers dialect (trim text),
        ¬ Recased identifier ∧ ¬ Hidden (trim text) identifier := by
  have lower : reservedRowMarkerField.map Char.toLower = reservedRowMarkerField := by decide
  have unreferenced := unreferenced_of_compile accepted
  apply forall₂_congr
  intro identifier listed
  constructor
  · intro unnamed
    refine ⟨fun recased => unnamed recased.1, fun hidden => unnamed ?_⟩
    rw [Identifier.column, hidden.1, lower, ite_self]
  · rintro ⟨spelled, shown⟩ named
    have own : identifier.name = reservedRowMarkerField := by
      by_contra other
      exact spelled ⟨named, other⟩
    have visible : identifier.mark ∈ (scan none false (trim text)).1 := by
      by_contra away
      exact shown ⟨own, away⟩
    rw [referenced_of_visible letters listed own visible] at unreferenced
    cases unreferenced

/-- Words of letters, digits and underscores. -/
def plainDialect : Dialect where
  word := isIdentifierChar
  quote_apart := by decide
  doubleQuote_apart := by decide

theorem plain_filter_names_no_row_marker :
    CompiledFilter.compile exactFloats true "kind = 'it''s'".toList =
        .ok ⟨"kind = 'it''s'".toList, [⟨⟨["kind"]⟩, .equal, .string "it's"⟩]⟩ ∧
      ∀ identifier ∈ identifiers plainDialect (trim "kind = 'it''s'".toList),
        identifier.column ≠ reservedRowMarkerField := by
  have accepted : CompiledFilter.compile exactFloats true "kind = 'it''s'".toList =
      .ok ⟨"kind = 'it''s'".toList, [⟨⟨["kind"]⟩, .equal, .string "it's"⟩]⟩ := by
    decide +kernel
  have found : identifiers plainDialect (trim "kind = 'it''s'".toList) =
      [⟨"kind".toList, false, ⟨none, "kind = 'it''s'".toList⟩⟩] := by
    decide +kernel
  refine ⟨accepted, (row_marker_unnamed_iff plainDialect (fun _ => id) accepted).mpr ?_⟩
  intro identifier listed
  rw [found, List.mem_singleton] at listed
  subst listed
  exact ⟨fun recased => absurd recased.1 (by decide +kernel),
    fun hidden => absurd hidden.1 (by decide +kernel)⟩

/-- Capital letters and a single quote in a quoted identifier get past the check. -/
theorem row_marker_gets_past_the_check :
    (∃ filter, CompiledFilter.compile exactFloats true "__KRABKA_ROW_MARKER IS NULL".toList =
        .ok filter) ∧
      (∃ identifier ∈ identifiers plainDialect (trim "__KRABKA_ROW_MARKER IS NULL".toList),
        identifier.column = reservedRowMarkerField) ∧
      (∃ filter, CompiledFilter.compile exactFloats true
        "(\"it's\" = 1 OR __krabka_row_marker = 1)".toList = .ok filter) ∧
      ∃ identifier ∈ identifiers plainDialect
          (trim "(\"it's\" = 1 OR __krabka_row_marker = 1)".toList),
        identifier.column = reservedRowMarkerField := by
  refine ⟨⟨⟨"__KRABKA_ROW_MARKER IS NULL".toList, []⟩, by decide +kernel⟩, by decide +kernel,
    ⟨⟨"(\"it's\" = 1 OR __krabka_row_marker = 1)".toList, []⟩, by decide +kernel⟩,
    by decide +kernel⟩

end KrabkaGateway.Filter
