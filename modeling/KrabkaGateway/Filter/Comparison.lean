import KrabkaGateway.Filter.Operators
import KrabkaGateway.Lib.Fallible

/-!
# Compiling one comparison

What `compile` makes of the text of a comparison: a predicate for a path of one segment,
unless the segment is a word of the filter language; nothing that can be evaluated on
JSON for a longer path.
-/

namespace KrabkaGateway.Filter

open Lib Lib.Quoted

/-! ## Paths -/

variable {segment : List Char}

theorem not_dot_of_single (identifier : isIdentifier segment = true) : '.' ∉ dotted [segment] := by
  have chars := (all_of_isIdentifier identifier).2
  simp only [dotted, List.intercalate_singleton]
  intro inside
  exact absurd (chars _ inside) (by decide)

theorem head_not_digit (identifier : isIdentifier segment = true) :
    segment.head?.any Char.isDigit = false := by
  cases segment with
  | nil => rfl
  | cons first rest =>
    simp only [isIdentifier, Bool.and_eq_true, Bool.or_eq_true, beq_iff_eq] at identifier
    rw [List.head?_cons, Option.any_some]
    obtain rfl | alpha := identifier.1
    · decide
    · by_contra digit
      unfold Char.isAlpha Char.isUpper Char.isLower at alpha
      simp only [Char.isDigit, Bool.or_eq_true, Bool.and_eq_true, decide_eq_true_eq,
        UInt32.le_iff_toNat_le, ge_iff_le, Bool.not_eq_false] at alpha digit
      have upper : first.val.toNat ≤ 57 := digit.2
      obtain bounds | bounds := alpha
      · exact absurd (le_trans bounds.1 upper) (by decide)
      · exact absurd (le_trans bounds.1 upper) (by decide)

theorem blank_isWhitespace : ∀ char ∈ [' '], isWhitespace char = true := by
  intro char inside
  rw [List.mem_singleton.mp inside]
  decide

theorem trim_solid {text : List Char} (nonempty : text ≠ [])
    (head : ∀ char ∈ text.head?, isWhitespace char = false)
    (last : ∀ char ∈ text.getLast?, isWhitespace char = false) : trim text = text := by
  have unpadded : trim ([] ++ text ++ []) = text :=
    trim_pad nonempty (by simp) (by simp) head last
  simpa using unpadded

section Path

variable {segments : List (List Char)} (path : IdentifierPath segments)

include path

theorem trim_field : trim (dotted segments ++ [' ']) = dotted segments := by
  obtain ⟨some_field, heads, lasts⟩ := dotted_ends path
  rw [← List.nil_append (dotted segments ++ [' ']), ← List.append_assoc]
  apply trim_pad some_field
  · simp
  · exact blank_isWhitespace
  · exact fun char head => not_whitespace_of_identifierChar (heads char head)
  · exact fun char last => not_whitespace_of_identifierChar (lasts char last)

theorem splitOn_dotted : (dotted segments).splitOn '.' = segments := by
  apply List.splitOn_intercalate _ _ path.nonempty
  intro segment listed inside
  have chars := (all_of_isIdentifier (path.identifiers segment listed)).2
  exact absurd (chars _ inside) (by decide)

theorem map_trim_segments : segments.map trim = segments := by
  conv_rhs => rw [← List.map_id segments]
  apply List.map_congr_left
  intro segment listed
  obtain ⟨some_chars, chars⟩ := all_of_isIdentifier (path.identifiers segment listed)
  exact trim_solid some_chars
    (fun char head => not_whitespace_of_identifierChar (chars char (List.mem_of_mem_head? head)))
    fun char last => not_whitespace_of_identifierChar (chars char (List.mem_of_getLast? last))

theorem parse_field (arrow : Bool) :
    if segments.length = 1 then
      FieldPath.parse arrow (dotted segments) = .ok ⟨segments.map String.ofList⟩
    else ∃ error, FieldPath.parse arrow (dotted segments) = .error error := by
  have valid : segments.all isIdentifier = true := List.all_eq_true.mpr path.identifiers
  have filled : segments.isEmpty = false := by simpa using path.nonempty
  split
  · rename_i single
    simp [FieldPath.parse, splitOn_dotted path, map_trim_segments path, valid, filled, single]
  · rename_i many
    cases arrow <;>
      simp [FieldPath.parse, splitOn_dotted path, map_trim_segments path, valid, filled, many]

variable {clause : List Char}

theorem parsePredicate_of_path_part (arrow : Bool)
    (part : ∀ char ∈ clause, char ∈ dotted segments) :
    ∃ error, parsePredicate floats arrow clause = .error error := by
  by_cases empty : clause.isEmpty
  · simp [parsePredicate, empty]
  · have plain : ∀ char ∈ clause, isIdentifierChar char = true ∨ char = '.' :=
      fun char inside => mem_dotted path.identifiers (part char inside)
    have scanned := scan_unquoted (fun inside => absurd (plain _ inside) (by decide)) none
    have noOperator : ∀ token ∈ operatorTokens, findUnquotedToken clause token.1 = .ok none :=
      fun token listed => no_operator_of_plain scanned (not_operator_of_path plain)
        (List.mem_map_of_mem listed)
    obtain ⟨error, failed⟩ := parse_operator_error noOperator
    exact ⟨error, by simp [parsePredicate, empty, failed, bind, Except.bind]⟩

end Path

variable {text : List Char} {mark : Mark}

theorem mem_of_mem_trim {char : Char} (inside : char ∈ trim text) : char ∈ text := by
  simp only [trim, List.rdropWhile, List.mem_reverse] at inside
  have reversed := (List.dropWhile_sublist _).subset inside
  exact (List.dropWhile_sublist _).subset (List.mem_reverse.mp reversed)

theorem splitAndClauses_of_placed {marks others : List Mark}
    (scanned : scan none false text = (marks, false))
    (placed : marks.filter (startsWithKeywordAt andWord) = mark :: others) :
    ∃ later, splitAndClauses text =
      .ok (text.take (text.length - mark.rest.length) :: later) := by
  refine ⟨clausesFrom text (text.length - mark.rest.length + 3)
    (others.map fun mark => text.length - mark.rest.length), ?_⟩
  simp [splitAndClauses, scanned, placed, clausesFrom]

namespace Comparison

variable {floats : Floats} (written : Comparison floats)

theorem text_ne_nil : written.text ≠ [] := by
  simp [text, comparisonText]

theorem trim_text : trim written.text = written.text := by
  obtain ⟨some_field, heads, _⟩ := dotted_ends written.path
  apply trim_solid written.text_ne_nil
  · intro char head
    apply not_whitespace_of_identifierChar
    apply heads
    rwa [text_eq, field, List.head?_append_of_ne_nil _ some_field] at head
  · intro char last
    apply written.literal.last
    rwa [text_eq, ← List.append_assoc, value,
      List.getLast?_append_of_ne_nil _ written.literal.nonempty] at last

/-! ## Words and brackets -/

section Words

variable {same : List Char → List Char → Bool} (comparison : WordComparison same)
  {word : List Char} (nonempty : word ≠ [])
  (letters : ∀ char ∈ word, isIdentifierChar char = true)

include comparison nonempty letters

theorem any_wordAt_middle (before : Option Char) :
    (plainMarks before written.middle written.value).any (wordAt same word) = false := by
  rw [List.any_eq_false]
  intro mark listed
  obtain ⟨char, inside, head⟩ := head_of_mem_plainMarks listed
  have others : (' ' :: operatorChars).all (fun char => !isIdentifierChar char) = true := by decide
  have other : isIdentifierChar char = false := by
    simpa using List.all_eq_true.mp others char (written.mem_middle inside)
  simp [wordAt_other comparison nonempty letters head other]

theorem any_wordAt_text
    (clean : (plainMarks (some ' ') written.bare written.tail).any (wordAt same word) = false) :
    (scan none false written.text).1.any (wordAt same word) =
      written.segments.any fun segment => same segment word := by
  obtain ⟨before, scanned⟩ := written.scan_text
  rw [scanned, List.any_append, List.any_append, clean,
    written.any_wordAt_middle comparison nonempty letters, field, dotted,
    any_wordAt_path comparison nonempty letters written.path.identifiers (by rfl) (by rfl)]
  simp

end Words

variable {word : List Char}

theorem containsUnquotedWord_text (listed : word ∈ filterWords) :
    containsUnquotedWord written.text word =
      written.segments.any fun segment => eqIgnoreAsciiCase segment word := by
  have shape : word ≠ [] ∧ ∀ char ∈ word, isIdentifierChar char = true := by
    have all : filterWords.all (fun word => !word.isEmpty && word.all isIdentifierChar) = true := by
      decide
    simpa using List.all_eq_true.mp all word listed
  exact written.any_wordAt_text wordComparison_ignoreCase shape.1 shape.2
    (written.literal.words word listed)

theorem sqlReferencesReservedRowMarker_text :
    sqlReferencesReservedRowMarker written.text =
      written.segments.any fun segment => segment == reservedRowMarkerField := by
  have letters : reservedRowMarkerField.all isIdentifierChar = true := by decide
  exact written.any_wordAt_text wordComparison_eq (by decide) (List.all_eq_true.mp letters)
    written.literal.reserved

theorem head_of_mem_scan (listed : mark ∈ (scan none false written.text).1) :
    ∃ char, mark.rest.head? = some char ∧
      (isIdentifierChar char = true ∨ char = '.' ∧ '.' ∈ written.field ∨
        char ∈ '-' :: ' ' :: operatorChars) := by
  obtain ⟨before, scanned⟩ := written.scan_text
  rw [scanned] at listed
  simp only [List.mem_append] at listed
  obtain inField | inMiddle | inLiteral := listed
  · obtain ⟨char, inside, head⟩ := head_of_mem_plainMarks inField
    refine ⟨char, head, ?_⟩
    obtain identifier | rfl := written.plain_field inside
    · exact Or.inl identifier
    · exact Or.inr (Or.inl ⟨rfl, inside⟩)
  · obtain ⟨char, inside, head⟩ := head_of_mem_plainMarks inMiddle
    exact ⟨char, head, Or.inr (Or.inr (List.mem_cons_of_mem _ (written.mem_middle inside)))⟩
  · obtain ⟨char, inside, head⟩ := head_of_mem_plainMarks inLiteral
    refine ⟨char, head, ?_⟩
    obtain identifier | rfl := written.literal.chars char inside
    · exact Or.inl identifier
    · exact Or.inr (Or.inr List.mem_cons_self)

theorem containsUnquotedChar_text {target : Char} (bracket : target ∈ ['(', ')', '[', ']']) :
    containsUnquotedChar written.text target = false := by
  rw [containsUnquotedChar, List.any_eq_false]
  intro mark listed
  obtain ⟨char, head, shape⟩ := written.head_of_mem_scan listed
  have different : char ≠ target := by
    rintro rfl
    simp only [List.mem_cons, List.not_mem_nil, or_false] at bracket
    obtain rfl | rfl | rfl | rfl := bracket <;> exact absurd shape (by simp; decide)
  simp [head, different]

/-! ## Separators -/

theorem separator_of_single (single : written.segments = [segment]) :
    containsUnquotedFieldPathSeparator written.text = false := by
  rw [containsUnquotedFieldPathSeparator, List.any_eq_false]
  intro mark listed
  obtain ⟨char, head, shape⟩ := written.head_of_mem_scan listed
  have notDot : char ≠ '.' := by
    rintro rfl
    obtain identifier | ⟨_, inside⟩ | other := shape
    · exact absurd identifier (by decide)
    · have own := written.path.identifiers segment (by simp [single])
      rw [field, single] at inside
      exact not_dot_of_single own inside
    · exact absurd other (by decide)
  simp [head, notDot]

/-- The full stop between two segments is no decimal point: an identifier does not begin with a
digit. -/
theorem separator_of_many {first second : List Char} {rest : List (List Char)}
    (many : written.segments = first :: second :: rest) :
    containsUnquotedFieldPathSeparator written.text = true := by
  obtain ⟨_, scanned⟩ := written.scan_text
  rw [containsUnquotedFieldPathSeparator, scanned, List.any_append, Bool.or_eq_true]
  left
  have identifier : isIdentifier second = true :=
    written.path.identifiers second (by simp [many])
  generalize written.middle ++ written.value = behind
  obtain ⟨before, split⟩ := plainMarks_append none first ('.' :: dotted (second :: rest)) behind
  rw [field, many, dotted_cons_cons, split, List.any_append, plainMarks, List.any_cons]
  have next : (dotted (second :: rest) ++ behind).head? = second.head? := by
    have some_chars := (all_of_isIdentifier identifier).1
    cases rest with
    | nil => simp [dotted, List.head?_append_of_ne_nil _ some_chars]
    | cons third others =>
      rw [dotted_cons_cons, List.append_assoc, List.head?_append_of_ne_nil _ some_chars]
  have notDecimal :
      isDecimalLiteralPoint ⟨before, '.' :: (dotted (second :: rest) ++ behind)⟩ = false := by
    simp only [isDecimalLiteralPoint, List.drop_succ_cons, List.drop_zero, next,
      head_not_digit identifier, Bool.and_false]
  simp [notDecimal]

theorem sqlRequiresArrowDataFusion_text :
    sqlRequiresArrowDataFusion written.text =
      (dataFusionWords.any (fun word =>
          written.segments.any fun segment => eqIgnoreAsciiCase segment word) ||
        decide (written.segments.length ≠ 1)) := by
  have words : dataFusionWords.any (containsUnquotedWord written.text) =
      dataFusionWords.any fun word =>
        written.segments.any fun segment => eqIgnoreAsciiCase segment word := by
    rw [Bool.eq_iff_iff, List.any_eq_true, List.any_eq_true]
    refine exists_congr fun word => and_congr_right fun listed => ?_
    rw [written.containsUnquotedWord_text (List.mem_cons_of_mem _ listed)]
  have brackets : ['(', ')', '[', ']'].any (containsUnquotedChar written.text) = false := by
    rw [List.any_eq_false]
    intro target bracket
    simp [written.containsUnquotedChar_text bracket]
  rw [sqlRequiresArrowDataFusion, words, brackets, Bool.or_false]
  congr 1
  match shape : written.segments with
  | [] => exact absurd shape written.path.nonempty
  | [segment] => simp [written.separator_of_single shape]
  | first :: second :: rest => simp [written.separator_of_many shape]

/-! ## The predicate -/

theorem trim_value : trim (' ' :: written.value) = written.value := by
  have padded : ' ' :: written.value = [' '] ++ written.value ++ [] := by simp
  rw [padded]
  apply trim_pad written.literal.nonempty
  · exact blank_isWhitespace
  · simp
  · exact written.literal.head
  · exact written.literal.last

theorem parsePredicate_text (arrow : Bool) :
    if written.segments.length = 1 then
      parsePredicate floats arrow written.text =
        .ok ⟨⟨written.segments.map String.ofList⟩, written.operator, written.expected⟩
    else ∃ error, parsePredicate floats arrow written.text = .error error := by
  have filled : written.text.isEmpty = false := by simpa using written.text_ne_nil
  have field := parse_field written.path arrow
  have whole : parsePredicate floats arrow written.text =
      (FieldPath.parse arrow (dotted written.segments)).map fun field =>
        ⟨field, written.operator, written.expected⟩ := by
    simp only [parsePredicate, filled, Bool.false_eq_true, if_false, written.parse_operator, bind,
      Except.bind, written.trim_value]
    rw [show FilterValue.parse floats written.value = .ok written.expected from
      written.literal.parsed]
    simp only [written.accepted, Bool.not_true, Bool.false_eq_true, if_false, Comparison.field,
      trim_field written.path]
    cases FieldPath.parse arrow (dotted written.segments) <;> rfl
  rw [whole]
  split at field
  · rename_i single
    simp only [single, if_true, field]
    rfl
  · rename_i many
    obtain ⟨error, failed⟩ := field
    simp only [many, if_false, failed]
    exact ⟨error, rfl⟩

/-! ## Clauses -/

variable (arrow : Bool)

theorem parseLegacyPredicates_and
    (conjunction : (written.segments.any fun segment => eqIgnoreAsciiCase segment andWord) = true) :
    ∃ error, parseLegacyPredicates floats arrow written.text = .error error := by
  obtain ⟨before, scanned⟩ := written.scan_text
  have someWord := written.containsUnquotedWord_text (List.mem_cons_self : andWord ∈ filterWords)
  have between : (plainMarks before written.middle written.value).any
      (startsWithKeywordAt andWord) = false :=
    written.any_wordAt_middle wordComparison_ignoreCase (by decide)
      (List.all_eq_true.mp (by decide)) before
  rw [conjunction, containsUnquotedWord, scanned, List.any_append, List.any_append, between,
    written.literal.words andWord List.mem_cons_self] at someWord
  simp only [Bool.or_false, List.any_eq_true] at someWord
  obtain ⟨found, inField, isAnd⟩ := someWord
  -- The first place of the word is one of the path.
  cases placed : (plainMarks none written.field (written.middle ++ written.value)).filter
      (startsWithKeywordAt andWord) with
  | nil =>
    have listed := List.mem_filter.mpr ⟨inField, isAnd⟩
    rw [placed] at listed
    exact absurd listed List.not_mem_nil
  | cons mark others =>
    have marked : mark ∈ plainMarks none written.field (written.middle ++ written.value) :=
      (List.mem_filter.mp (placed ▸ List.mem_cons_self)).1
    have bound := length_of_mem_plainMarks marked
    obtain ⟨later, clauses⟩ := splitAndClauses_of_placed scanned
      (by rw [List.filter_append, placed, List.cons_append])
    have part : ∀ char ∈ trim (written.text.take (written.text.length - mark.rest.length)),
        char ∈ dotted written.segments := by
      intro char inside
      have taken := mem_of_mem_trim inside
      rw [text_eq, List.take_append_of_le_length] at taken
      · exact List.mem_of_mem_take taken
      · rw [List.length_append]
        omega
    obtain ⟨error, failed⟩ := parsePredicate_of_path_part written.path arrow part
    refine ⟨error, ?_⟩
    simp only [parseLegacyPredicates, clauses, bind, Except.bind]
    apply mapM_error
    exact failed

theorem parseLegacyPredicates_text
    (noAnd : (written.segments.any fun segment => eqIgnoreAsciiCase segment andWord) = false) :
    parseLegacyPredicates floats arrow written.text =
      (parsePredicate floats arrow written.text).map fun predicate => [predicate] := by
  obtain ⟨before, scanned⟩ := written.scan_text
  have noWord := written.containsUnquotedWord_text (List.mem_cons_self : andWord ∈ filterWords)
  rw [noAnd, containsUnquotedWord, List.any_eq_false] at noWord
  have clauses : splitAndClauses written.text = .ok [written.text] := by
    have none_left : (scan none false written.text).1.filter (startsWithKeywordAt andWord) = [] :=
      List.filter_eq_nil_iff.mpr noWord
    rw [scanned] at none_left
    simp only [splitAndClauses, scanned, none_left, List.map_nil, clausesFrom, List.drop_zero]
    rfl
  simp only [parseLegacyPredicates, clauses, bind, Except.bind, List.mapM_cons, List.mapM_nil,
    written.trim_text]
  cases parsePredicate floats arrow written.text <;> rfl

end Comparison

/-! ## The result -/

/-- The paths that `compile` accepts on the left of an operator. -/
def acceptsPath (arrow : Bool) (segments : List (List Char)) : Bool :=
  !(segments.any fun segment => segment == reservedRowMarkerField) &&
    match segments with
    | [segment] => !eqIgnoreAsciiCase segment andWord &&
        (arrow || !dataFusionWords.any fun word => eqIgnoreAsciiCase segment word)
    | _ => arrow

namespace Comparison

variable {floats : Floats} (written : Comparison floats)

/-- The predicates that are kept: none for a path of several segments. -/
def predicates : List Predicate :=
  match written.segments with
  | [segment] => [⟨⟨[String.ofList segment]⟩, written.operator, written.expected⟩]
  | _ => []

theorem compile_text (arrow : Bool) :
    if acceptsPath arrow written.segments then
      CompiledFilter.compile floats arrow written.text = .ok ⟨written.text, written.predicates⟩
    else ∃ error, CompiledFilter.compile floats arrow written.text = .error error := by
  have filled : written.text.isEmpty = false := by simpa using written.text_ne_nil
  have predicate := written.parsePredicate_text arrow
  simp only [CompiledFilter.compile, written.trim_text, filled, Bool.false_eq_true, if_false,
    written.sqlReferencesReservedRowMarker_text, written.sqlRequiresArrowDataFusion_text,
    acceptsPath]
  cases reserved : written.segments.any fun segment => segment == reservedRowMarkerField with
  | true => simp
  | false =>
    match shape : written.segments with
    | [] => exact absurd shape written.path.nonempty
    | [segment] =>
      simp only [shape, List.length_singleton, if_true, List.map_singleton] at predicate
      cases conjunction : eqIgnoreAsciiCase segment andWord with
      | true =>
        -- The text falls apart at the word, and no other word asks for DataFusion.
        have noOther : (dataFusionWords.any fun word => eqIgnoreAsciiCase segment word) =
            false := by
          have lowered := beq_iff_eq.mp conjunction
          simp only [dataFusionWords, eqIgnoreAsciiCase, lowered]
          decide
        obtain ⟨error, failed⟩ := written.parseLegacyPredicates_and arrow
          (by simpa [shape] using conjunction)
        simp [conjunction, noOther, failed]
      | false =>
        have parsed := written.parseLegacyPredicates_text arrow
          (by simpa [shape] using conjunction)
        rw [predicate] at parsed
        cases arrow <;>
          cases words : dataFusionWords.any fun word => eqIgnoreAsciiCase segment word <;>
          simp [conjunction, words, parsed, predicates, shape, Except.map]
    | first :: second :: rest =>
      cases arrow with
      | false => simp
      | true =>
        have failed : ∃ error, parseLegacyPredicates floats true written.text = .error error := by
          cases conjunction : written.segments.any fun segment =>
              eqIgnoreAsciiCase segment andWord with
          | true => exact written.parseLegacyPredicates_and true conjunction
          | false =>
            rw [written.parseLegacyPredicates_text true conjunction]
            rw [if_neg (by simp [shape])] at predicate
            obtain ⟨error, failed⟩ := predicate
            exact ⟨error, by rw [failed]; rfl⟩
        obtain ⟨error, failed⟩ := failed
        simp [failed, predicates, shape]

end Comparison

end KrabkaGateway.Filter
