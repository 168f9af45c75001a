import KrabkaGateway.Filter.Words

/-!
# Finding the operator

A comparison is a dotted path of identifiers, an operator and the text of a scalar.
Outside quotes its operator is the only one, so that a search for an operator finds it
or, for a longer one, nothing.
-/

namespace KrabkaGateway.Filter

open Lib Lib.Quoted

/-! ## Trimming -/

theorem trim_pad {before core after : List Char} (some_core : core ≠ [])
    (blankBefore : ∀ char ∈ before, isWhitespace char = true)
    (blankAfter : ∀ char ∈ after, isWhitespace char = true)
    (head : ∀ char ∈ core.head?, isWhitespace char = false)
    (last : ∀ char ∈ core.getLast?, isWhitespace char = false) :
    trim (before ++ core ++ after) = core := by
  have front : (before ++ core ++ after).dropWhile isWhitespace = core ++ after := by
    rw [List.append_assoc, List.dropWhile_append_of_pos blankBefore]
    cases core with
    | nil => contradiction
    | cons first rest => simp [head first rfl]
  have back : (after.reverse ++ core.reverse).dropWhile isWhitespace = core.reverse := by
    rw [List.dropWhile_append_of_pos (by simpa using blankAfter)]
    cases shape : core.reverse with
    | nil => simp [some_core] at shape
    | cons first rest =>
      have isLast : core.getLast? = some first := by
        rw [← List.head?_reverse, shape]
        rfl
      simp [List.dropWhile, last first isLast]
  rw [trim, front, List.rdropWhile, List.reverse_append, back, List.reverse_reverse]

/-! ## The texts -/

def filterWords : List (List Char) :=
  andWord :: dataFusionWords

/-- The text of a scalar: characters outside quotes, then at most one quoted part. -/
structure Literal (floats : Floats) (bare tail : List Char) (expected : FilterValue) : Prop where
  chars : ∀ char ∈ bare, isIdentifierChar char = true ∨ char = '-'
  closed : ∀ previous, scan previous false tail = ([], false)
  words : ∀ word ∈ filterWords,
    (plainMarks (some ' ') bare tail).any (startsWithKeywordAt word) = false
  reserved : (plainMarks (some ' ') bare tail).any
    (startsWithFieldReference reservedRowMarkerField) = false
  nonempty : bare ++ tail ≠ []
  head : ∀ char ∈ (bare ++ tail).head?, isWhitespace char = false
  last : ∀ char ∈ (bare ++ tail).getLast?, isWhitespace char = false
  parsed : FilterValue.parse floats (bare ++ tail) = .ok expected

structure IdentifierPath (segments : List (List Char)) : Prop where
  nonempty : segments ≠ []
  identifiers : ∀ segment ∈ segments, isIdentifier segment = true

def dotted (segments : List (List Char)) : List Char :=
  ['.'].intercalate segments

theorem dotted_cons_cons (first second : List Char) (rest : List (List Char)) :
    dotted (first :: second :: rest) = first ++ '.' :: dotted (second :: rest) := by
  simp [dotted, List.intercalate]

variable {segments : List (List Char)} {char : Char}

theorem mem_dotted (identifiers : ∀ segment ∈ segments, isIdentifier segment = true)
    (inside : char ∈ dotted segments) : isIdentifierChar char = true ∨ char = '.' := by
  induction segments with
  | nil => simp [dotted] at inside
  | cons segment others ih =>
    have chars := (all_of_isIdentifier (identifiers segment List.mem_cons_self)).2
    have later : ∀ other ∈ others, isIdentifier other = true :=
      fun other listed => identifiers other (List.mem_cons_of_mem _ listed)
    cases others with
    | nil =>
      left
      apply chars
      simpa [dotted] using inside
    | cons next rest =>
      rw [dotted_cons_cons, List.mem_append, List.mem_cons] at inside
      obtain here | rfl | there := inside
      · exact Or.inl (chars char here)
      · exact Or.inr rfl
      · exact ih later there

theorem dotted_ends (path : IdentifierPath segments) :
    dotted segments ≠ [] ∧
      (∀ char ∈ (dotted segments).head?, isIdentifierChar char = true) ∧
      ∀ char ∈ (dotted segments).getLast?, isIdentifierChar char = true := by
  obtain ⟨nonempty, identifiers⟩ := path
  induction segments with
  | nil => contradiction
  | cons segment others ih =>
    obtain ⟨some_chars, chars⟩ := all_of_isIdentifier (identifiers segment List.mem_cons_self)
    have later : ∀ other ∈ others, isIdentifier other = true :=
      fun other listed => identifiers other (List.mem_cons_of_mem _ listed)
    cases others with
    | nil =>
      have alone : dotted [segment] = segment := by simp [dotted]
      rw [alone]
      exact ⟨some_chars, fun char head => chars char (List.mem_of_mem_head? head),
        fun char last => chars char (List.mem_of_getLast? last)⟩
    | cons next rest =>
      obtain ⟨_, _, lasts⟩ := ih (List.cons_ne_nil _ _) later
      rw [dotted_cons_cons]
      refine ⟨by simp, ?_, ?_⟩
      · intro char head
        apply chars
        rw [List.head?_append_of_ne_nil _ some_chars] at head
        exact List.mem_of_mem_head? head
      · intro char last
        rw [List.getLast?_append_of_ne_nil _ (List.cons_ne_nil _ _), List.getLast?_cons] at last
        cases tailLast : (dotted (next :: rest)).getLast? with
        | none =>
          rw [List.getLast?_eq_none_iff] at tailLast
          exact absurd tailLast (ih (List.cons_ne_nil _ _) later).1
        | some found =>
          rw [tailLast] at last
          exact lasts char (by simpa [tailLast] using last)

/-! ## Operators -/

def ComparisonOperator.token : ComparisonOperator → List Char
  | .equal => ['=']
  | .notEqual => ['!', '=']
  | .greaterThan => ['>']
  | .greaterThanOrEqual => ['>', '=']
  | .lessThan => ['<']
  | .lessThanOrEqual => ['<', '=']

def comparisonText (field : List Char) (operator : ComparisonOperator) (literal : List Char) :
    List Char :=
  (field ++ [' ']) ++ (operator.token ++ ' ' :: literal)

def operatorChars : List Char := ['!', '=', '<', '>']

theorem mem_operatorChars {operator : ComparisonOperator} (inside : char ∈ operator.token) :
    char ∈ operatorChars := by
  have within : operator.token ⊆ operatorChars := by cases operator <;> decide
  exact within inside

theorem not_operator_of_isIdentifierChar (identifier : isIdentifierChar char = true) :
    char ∉ operatorChars := by
  have others : operatorChars.all (fun char => !isIdentifierChar char) = true := by decide
  intro operator
  have other := List.all_eq_true.mp others char operator
  simp [identifier] at other

theorem find_plainMarks_none {plain : List Char} (others : ∀ char ∈ plain, char ∉ operatorChars)
    {first : Char} (operator : first ∈ operatorChars) (token : List Char) (previous : Option Char)
    (tail : List Char) :
    (plainMarks previous plain tail).find? (fun mark => (first :: token).isPrefixOf mark.rest) =
      none := by
  rw [List.find?_eq_none]
  intro mark listed found
  obtain ⟨char, inside, head⟩ := head_of_mem_plainMarks listed
  obtain ⟨rest, whole⟩ := List.isPrefixOf_iff_prefix.mp found
  rw [← whole] at head
  obtain rfl : first = char := Option.some.inj head
  exact others first inside operator

theorem not_operator_of_path {field : List Char}
    (plain : ∀ char ∈ field, isIdentifierChar char = true ∨ char = '.') :
    ∀ char ∈ field, char ∉ operatorChars := by
  intro char inside
  obtain identifier | rfl := plain char inside
  · exact not_operator_of_isIdentifierChar identifier
  · decide

theorem operatorTokens_shape {token : List Char} (listed : token ∈ operatorTokens.map Prod.fst) :
    ∃ first rest, token = first :: rest ∧ first ∈ operatorChars := by
  simp only [operatorTokens, List.map_cons, List.map_nil, List.mem_cons, List.not_mem_nil,
    or_false] at listed
  rcases listed with rfl | rfl | rfl | rfl | rfl | rfl <;> exact ⟨_, _, rfl, by decide⟩

theorem no_operator_of_plain {text plain tail : List Char}
    (scanned : scan none false text = (plainMarks none plain tail, false))
    (others : ∀ char ∈ plain, char ∉ operatorChars) {token : List Char}
    (listed : token ∈ operatorTokens.map Prod.fst) : findUnquotedToken text token = .ok none := by
  obtain ⟨first, rest, rfl, operator⟩ := operatorTokens_shape listed
  simp [findUnquotedToken, scanned, find_plainMarks_none others operator]

variable {clause : List Char}

theorem rejectExtraOperator_ok {text : List Char} {tokens : List (List Char)}
    (absent : ∀ token ∈ tokens, findUnquotedToken text token = .ok none) :
    rejectExtraOperator clause text tokens = .ok () := by
  induction tokens with
  | nil => rfl
  | cons token others ih =>
    simp only [rejectExtraOperator, absent token List.mem_cons_self, bind, Except.bind]
    apply ih
    intro other listed
    exact absent other (List.mem_cons_of_mem _ listed)

theorem parse_operator_error {tokens : List (List Char × ComparisonOperator)}
    (absent : ∀ token ∈ tokens, findUnquotedToken clause token.1 = .ok none) :
    ∃ error, ComparisonOperator.parse clause tokens = .error error := by
  induction tokens with
  | nil => exact ⟨_, rfl⟩
  | cons token others ih =>
    simp only [ComparisonOperator.parse, absent token List.mem_cons_self, bind, Except.bind]
    apply ih
    intro other listed
    exact absent other (List.mem_cons_of_mem _ listed)

def earlierTokens : ComparisonOperator → List (List Char)
  | .notEqual => []
  | .greaterThanOrEqual => [['!', '=']]
  | .lessThanOrEqual => [['!', '='], ['>', '=']]
  | .equal => [['!', '='], ['>', '='], ['<', '=']]
  | .greaterThan => [['!', '='], ['>', '='], ['<', '='], ['=']]
  | .lessThan => [['!', '='], ['>', '='], ['<', '='], ['='], ['>']]

theorem operatorTokens_split (operator : ComparisonOperator) : ∃ before after,
    operatorTokens = before ++ (operator.token, operator) :: after ∧
      before.map Prod.fst = earlierTokens operator := by
  cases operator with
  | notEqual => exact ⟨[], operatorTokens.drop 1, rfl, rfl⟩
  | greaterThanOrEqual => exact ⟨operatorTokens.take 1, operatorTokens.drop 2, rfl, rfl⟩
  | lessThanOrEqual => exact ⟨operatorTokens.take 2, operatorTokens.drop 3, rfl, rfl⟩
  | equal => exact ⟨operatorTokens.take 3, operatorTokens.drop 4, rfl, rfl⟩
  | greaterThan => exact ⟨operatorTokens.take 4, operatorTokens.drop 5, rfl, rfl⟩
  | lessThan => exact ⟨operatorTokens.take 5, [], rfl, rfl⟩

theorem parse_operator_append {operator : ComparisonOperator} {token : List Char} {index : Nat}
    {before after : List (List Char × ComparisonOperator)}
    (absent : ∀ entry ∈ before, findUnquotedToken clause entry.1 = .ok none)
    (found : findUnquotedToken clause token = .ok (some index))
    (alone : rejectExtraOperator clause (clause.drop (index + token.length))
      (operatorTokens.map Prod.fst) = .ok ()) :
    ComparisonOperator.parse clause (before ++ (token, operator) :: after) =
      .ok (operator, clause.take index, clause.drop (index + token.length)) := by
  induction before with
  | nil =>
    simp only [List.nil_append, ComparisonOperator.parse, found, bind, Except.bind, alone]
    rfl
  | cons entry before ih =>
    simp only [List.cons_append, ComparisonOperator.parse, absent entry List.mem_cons_self, bind,
      Except.bind]
    exact ih fun other listed => absent other (List.mem_cons_of_mem _ listed)

/-! ## A comparison -/

/-- A comparison that a text can hold. -/
structure Comparison (floats : Floats) where
  segments : List (List Char)
  operator : ComparisonOperator
  bare : List Char
  tail : List Char
  expected : FilterValue
  path : IdentifierPath segments
  literal : Literal floats bare tail expected
  accepted : operator.acceptsLiteral expected = true

namespace Comparison

variable {floats : Floats} (written : Comparison floats)

def field : List Char :=
  dotted written.segments

/-- The operator with the blanks around it. -/
def middle : List Char :=
  ' ' :: (written.operator.token ++ [' '])

def value : List Char :=
  written.bare ++ written.tail

def text : List Char :=
  comparisonText written.field written.operator written.value

theorem text_eq : written.text = written.field ++ (written.middle ++ written.value) := by
  simp [text, comparisonText, middle]

theorem plain_field (inside : char ∈ written.field) : isIdentifierChar char = true ∨ char = '.' :=
  mem_dotted written.path.identifiers inside

theorem mem_middle (inside : char ∈ written.middle) : char ∈ ' ' :: operatorChars := by
  rw [middle, List.mem_cons, List.mem_append, List.mem_singleton] at inside
  obtain blank | token | blank := inside
  · exact blank ▸ List.mem_cons_self
  · exact List.mem_cons_of_mem _ (mem_operatorChars token)
  · exact blank ▸ List.mem_cons_self

theorem unquoted_bare : quote ∉ written.bare :=
  fun inside => absurd (written.literal.chars _ inside) (by decide)

theorem not_operator_of_bare : ∀ char ∈ written.bare, char ∉ operatorChars := by
  intro char inside
  obtain identifier | rfl := written.literal.chars char inside
  · exact not_operator_of_isIdentifierChar identifier
  · decide

/-- The places outside quotes: those of the path, those of the operator and the blanks around it,
and those of the literal. -/
theorem scan_text :
    ∃ before, scan none false written.text =
      (plainMarks none written.field (written.middle ++ written.value) ++
        (plainMarks before written.middle written.value ++
          plainMarks (some ' ') written.bare written.tail), false) := by
  have unquoted : quote ∉ written.field ++ (written.middle ++ written.bare) := by
    rw [List.mem_append, List.mem_append]
    rintro (inField | inMiddle | inBare)
    · exact absurd (written.plain_field inField) (by decide)
    · exact absurd (written.mem_middle inMiddle) (by decide)
    · exact written.unquoted_bare inBare
  obtain ⟨before, split⟩ := plainMarks_append none written.field (written.middle ++ written.bare)
    written.tail
  have behind : plainMarks before (written.middle ++ written.bare) written.tail =
      plainMarks before written.middle written.value ++
        plainMarks (some ' ') written.bare written.tail := by
    rw [middle]
    cases written.operator <;> rfl
  have scanned := scan_plain unquoted written.literal.closed none
  rw [split, behind] at scanned
  refine ⟨before, ?_⟩
  simpa [text_eq, value] using scanned

theorem findUnquotedToken_text {first : Char} (listed : first ∈ operatorChars)
    (token : List Char) :
    ∃ before, findUnquotedToken written.text (first :: token) =
      .ok (((plainMarks before written.middle written.value).find?
        fun mark => (first :: token).isPrefixOf mark.rest).map fun mark =>
          written.text.length - mark.rest.length) := by
  obtain ⟨before, scanned⟩ := written.scan_text
  refine ⟨before, ?_⟩
  simp only [findUnquotedToken, scanned, List.find?_append,
    find_plainMarks_none (not_operator_of_path fun _ => written.plain_field) listed,
    find_plainMarks_none written.not_operator_of_bare listed, Option.none_or, Option.or_none]
  cases (plainMarks before written.middle written.value).find?
    fun mark => (first :: token).isPrefixOf mark.rest <;> rfl

theorem findUnquotedToken_own :
    findUnquotedToken written.text written.operator.token =
      .ok (some (written.field ++ [' ']).length) := by
  obtain ⟨first, rest, shape⟩ : ∃ first rest, written.operator.token = first :: rest := by
    cases written.operator <;> exact ⟨_, _, rfl⟩
  have listed : first ∈ operatorChars := mem_operatorChars (shape ▸ List.mem_cons_self)
  obtain ⟨before, found⟩ := written.findUnquotedToken_text listed rest
  have place : (plainMarks before written.middle written.value).find?
      (fun mark => written.operator.token.isPrefixOf mark.rest) =
        some ⟨some ' ', written.operator.token ++ ' ' :: written.value⟩ := by
    rw [middle]
    cases written.operator <;> rfl
  rw [shape, found, ← shape, place, Option.map_some]
  simp only [text, comparisonText, List.length_append, Nat.add_sub_cancel]

theorem findUnquotedToken_earlier {token : List Char}
    (earlier : token ∈ earlierTokens written.operator) :
    findUnquotedToken written.text token = .ok none := by
  have absent : ∀ first rest, first ∈ operatorChars →
      (∀ before, (plainMarks before written.middle written.value).find?
        (fun mark => (first :: rest).isPrefixOf mark.rest) = none) →
      findUnquotedToken written.text (first :: rest) = .ok none := by
    intro first rest listed nowhere
    obtain ⟨before, found⟩ := written.findUnquotedToken_text listed rest
    rw [found, nowhere]
    rfl
  rw [middle] at absent
  cases shape : written.operator <;>
    simp only [shape, earlierTokens, List.mem_cons, List.not_mem_nil, or_false] at earlier absent
  all_goals
    rcases earlier with rfl | rfl | rfl | rfl | rfl
  all_goals exact absent _ _ (by decide) fun before => rfl

theorem value_has_no_operator {token : List Char} (listed : token ∈ operatorTokens.map Prod.fst) :
    findUnquotedToken (' ' :: written.value) token = .ok none := by
  have unquoted : quote ∉ ' ' :: written.bare :=
    List.not_mem_cons_of_ne_of_not_mem (by decide) written.unquoted_bare
  apply no_operator_of_plain (scan_plain unquoted written.literal.closed none) _ listed
  exact List.forall_mem_cons.mpr ⟨by decide, written.not_operator_of_bare⟩

theorem parse_operator :
    ComparisonOperator.parse written.text operatorTokens =
      .ok (written.operator, written.field ++ [' '], ' ' :: written.value) := by
  obtain ⟨before, after, tokens, earlier⟩ := operatorTokens_split written.operator
  have behind : written.text.drop
      ((written.field ++ [' ']).length + written.operator.token.length) =
        ' ' :: written.value := by
    rw [text, comparisonText, List.drop_length_add_append, List.drop_left]
  have front : written.text.take (written.field ++ [' ']).length = written.field ++ [' '] :=
    List.take_left
  rw [tokens, parse_operator_append
    (fun entry listed => written.findUnquotedToken_earlier
      (earlier ▸ List.mem_map_of_mem listed))
    written.findUnquotedToken_own, behind, front]
  rw [behind]
  exact rejectExtraOperator_ok fun token listed => written.value_has_no_operator listed

end Comparison

end KrabkaGateway.Filter
