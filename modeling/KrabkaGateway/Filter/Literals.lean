import KrabkaGateway.Filter.Comparison
import KrabkaGateway.Lib.Json

/-!
# Texts of scalars

The literals that stand for a string, a truth value, null and a 64-bit integer. Each
is read back as the value it was written for and holds no word or operator outside
quotes.
-/

namespace KrabkaGateway.Filter

open Lib Lib.Quoted

variable {text : List Char}

variable {first : Char}

theorem not_word_of_head {letter : Char} {rest : List Char} (head : text.head? = some first)
    (different : first.toLower ≠ letter.toLower) :
    eqIgnoreAsciiCase text (letter :: rest) = false := by
  cases text with
  | nil => contradiction
  | cons char others =>
    obtain rfl : char = first := Option.some.inj head
    simp [eqIgnoreAsciiCase, different]

variable {floats : Floats}

theorem parse_value (trimmed : trim text = text) (head : text.head? = some first)
    (other : first.toLower ≠ 't' ∧ first.toLower ≠ 'f' ∧ first.toLower ≠ 'n') :
    FilterValue.parse floats text =
      (parseQuotedString text).bind fun
        | some value => .ok (.string (String.ofList value))
        | none =>
          match NumericValue.parse floats text with
          | some value => .ok (.number value)
          | none => .error (.unsupportedSql ("unsupported filter literal " ++ shown text)) := by
  have notTrue : eqIgnoreAsciiCase text "true".toList = false := not_word_of_head head other.1
  have notFalse : eqIgnoreAsciiCase text "false".toList = false := not_word_of_head head other.2.1
  have notNull : eqIgnoreAsciiCase text "null".toList = false := not_word_of_head head other.2.2
  simp only [FilterValue.parse, trimmed, notTrue, notFalse, notNull, Bool.false_eq_true, if_false]
  cases parseQuotedString text with
  | error error => rfl
  | ok value =>
    cases value with
    | none =>
      simp only [bind, Except.bind]
      cases NumericValue.parse floats text <;> rfl
    | some value => rfl

theorem literal_quoted (floats : Floats) (text : List Char) :
    Literal floats [] (quoteText text) (.string (String.ofList text)) := by
  have head : (quoteText text).head? = some quote := rfl
  have last : (quoteText text).getLast? = some quote := by
    rw [quoteText, ← List.cons_append, List.getLast?_append_of_ne_nil _ (List.cons_ne_nil _ _)]
    rfl
  have solid : ∀ char ∈ some quote, isWhitespace char = false := by
    rintro char ⟨rfl⟩
    decide
  have quoted : parseQuotedString (quoteText text) = .ok (some text) := by
    have inner : (quoteText text).tail.dropLast = escape text := by simp [quoteText]
    have long : ¬ (quoteText text).length < 2 := by simp [quoteText]
    rw [parseQuotedString, if_neg (by simp [head]), if_neg (by simp [last, long]), inner,
      unescape_escape]
  have trimmed : trim (quoteText text) = quoteText text :=
    trim_solid (List.cons_ne_nil _ _) (head ▸ solid) (last ▸ solid)
  refine ⟨by simp, fun previous => scan_quoteText previous text, fun _ _ => rfl, rfl,
    List.cons_ne_nil _ _, by simpa only [List.nil_append, head] using solid,
    by simpa only [List.nil_append, last] using solid, ?_⟩
  rw [List.nil_append, parse_value trimmed head (by decide), quoted]
  rfl

/-- The text can stand as a literal: it holds no word that means something else. -/
def isWordLiteral (text : List Char) : Bool :=
  !text.isEmpty && text.all isIdentifierChar &&
    (filterWords.all fun word =>
      !(plainMarks (some ' ') text []).any (startsWithKeywordAt word)) &&
    !(plainMarks (some ' ') text []).any (startsWithFieldReference reservedRowMarkerField)

theorem literal_of_word {expected : FilterValue} (word : isWordLiteral text = true)
    (parsed : FilterValue.parse floats text = .ok expected) : Literal floats text [] expected := by
  simp only [isWordLiteral, Bool.and_eq_true, Bool.not_eq_true', List.all_eq_true,
    List.isEmpty_eq_false_iff] at word
  obtain ⟨⟨⟨nonempty, chars⟩, words⟩, reserved⟩ := word
  rw [← List.append_nil text] at parsed
  refine ⟨fun char inside => Or.inl (chars char inside), fun _ => rfl, words, reserved,
    by simpa using nonempty, ?_, ?_, parsed⟩
  · intro char head
    rw [List.append_nil] at head
    exact not_whitespace_of_identifierChar (chars char (List.mem_of_mem_head? head))
  · intro char last
    rw [List.append_nil] at last
    exact not_whitespace_of_identifierChar (chars char (List.mem_of_getLast? last))

theorem literal_null (floats : Floats) : Literal floats "null".toList [] .null :=
  literal_of_word (by decide) rfl

theorem literal_bool (floats : Floats) (value : Bool) :
    Literal floats (toString value).toList [] (.bool value) := by
  cases value with
  | false | true => exact literal_of_word (by decide) rfl

/-! ## Integers -/

variable {char : Char}

theorem isDigit_of_mem_toDigits {value : Nat} (inside : char ∈ Nat.toDigits 10 value) :
    char.isDigit = true :=
  Nat.isDigit_of_mem_toDigits (by decide) (by decide) inside

theorem parseDigits_toDigits (value : Nat) :
    parseDigits (Nat.toDigits 10 value) = some (Int.ofNat value) := by
  rw [parseDigits, if_pos, Nat.ofDigitChars_ten_toDigits]
  exact ⟨Nat.toDigits_ne_nil, List.all_eq_true.mpr fun char => isDigit_of_mem_toDigits⟩

theorem isDigit_code (digit : char.isDigit = true) : 48 ≤ char.toNat ∧ char.toNat ≤ 57 := by
  simpa [Char.isDigit, UInt32.le_iff_toNat_le] using digit

theorem toLower_of_isDigit (digit : char.isDigit = true) : char.toLower = char := by
  have code := isDigit_code digit
  unfold Char.toLower
  apply dif_neg
  simp only [UInt32.le_iff_toNat_le, ge_iff_le, not_and]
  intro lower
  have : 65 ≤ char.toNat := lower
  omega

theorem mem_renderInt {value : Int} (inside : char ∈ Lib.Json.renderInt value) :
    char.isDigit = true ∨ char = '-' := by
  rw [Lib.Json.renderInt] at inside
  split at inside
  · obtain rfl | later := List.mem_cons.mp inside
    · exact Or.inr rfl
    · exact Or.inl (isDigit_of_mem_toDigits later)
  · exact Or.inl (isDigit_of_mem_toDigits inside)

theorem renderInt_ne_nil (value : Int) : Lib.Json.renderInt value ≠ [] := by
  rw [Lib.Json.renderInt]
  split
  · exact List.cons_ne_nil _ _
  · exact Nat.toDigits_ne_nil

theorem parse_renderInt (floats : Floats) (integer : Integer64) :
    NumericValue.parse floats (Lib.Json.renderInt integer.value) =
      some (.integer integer.value) := by
  have whole : (Lib.Json.renderInt integer.value).any
      (fun char => char == '.' || char == 'e' || char == 'E') = false := by
    rw [List.any_eq_false]
    intro char inside
    obtain digit | rfl := mem_renderInt inside
    · have code := isDigit_code digit
      simp only [Bool.or_eq_true, beq_iff_eq, not_or]
      refine ⟨⟨?_, ?_⟩, ?_⟩ <;>
      · rintro rfl
        exact absurd code (by decide)
    · decide
  obtain ⟨lower, upper⟩ := integer.fits
  rw [NumericValue.parse, whole, if_neg (by decide), Lib.Json.renderInt]
  split
  · rename_i negative
    have value : -Int.ofNat integer.value.natAbs = integer.value := by
      rw [Int.ofNat_eq_natCast]
      omega
    have signed : parseI64 ('-' :: Nat.toDigits 10 integer.value.natAbs) = some integer.value := by
      rw [parseI64, parseDigits_toDigits, Option.map_some, value]
      exact Option.filter_some_pos (by simp; omega)
    rw [signed]
    rfl
  · rename_i natural
    have value : Int.ofNat integer.value.natAbs = integer.value := by
      rw [Int.ofNat_eq_natCast]
      omega
    cases digits : Nat.toDigits 10 integer.value.natAbs with
    | nil => exact absurd digits Nat.toDigits_ne_nil
    | cons first rest =>
      have digit : first.isDigit = true := isDigit_of_mem_toDigits (digits ▸ List.mem_cons_self)
      have notMinus : first ≠ '-' := by
        rintro rfl
        exact absurd digit (by decide)
      have notPlus : first ≠ '+' := by
        rintro rfl
        exact absurd digit (by decide)
      have parsed : parseDigits (first :: rest) = some integer.value :=
        value ▸ digits ▸ parseDigits_toDigits _
      have signed : parseI64 (first :: rest) =
          (some integer.value).filter fun value => decide (-2 ^ 63 ≤ value ∧ value < 2 ^ 63) := by
        rw [parseI64, parsed]
        · exact fun digits same => notMinus (List.cons.inj same).1
        · exact fun digits same => notPlus (List.cons.inj same).1
      have unsigned : parseU64 (first :: rest) =
          (some integer.value).filter fun value => decide (value < 2 ^ 64) := by
        rw [parseU64, parsed]
        exact fun digits same => notPlus (List.cons.inj same).1
      rw [signed, unsigned]
      by_cases small : integer.value < 2 ^ 63
      · rw [Option.filter_some_pos (by simp; omega)]
        rfl
      · rw [Option.filter_some_neg (by simp; omega), Option.filter_some_pos (by simpa using upper)]
        rfl

theorem literal_integer (floats : Floats) (integer : Integer64) :
    Literal floats (Lib.Json.renderInt integer.value) [] (.number (.integer integer.value)) := by
  have solid : ∀ char ∈ Lib.Json.renderInt integer.value, isWhitespace char = false := by
    intro char inside
    obtain digit | rfl := mem_renderInt inside
    · apply not_whitespace_of_identifierChar
      simp [isIdentifierChar, Char.isAlphanum, digit]
    · decide
  have trimmed : trim (Lib.Json.renderInt integer.value) = Lib.Json.renderInt integer.value :=
    trim_solid (renderInt_ne_nil _) (fun char head => solid char (List.mem_of_mem_head? head))
      fun char last => solid char (List.mem_of_getLast? last)
  have noWord : ∀ (same : List Char → List Char → Bool), WordComparison same →
      ∀ letter rest, (∀ char ∈ letter :: rest, isIdentifierChar char = true) →
      (∀ char others, char.isDigit = true → same (char :: others) (letter :: rest) = false) →
      (plainMarks (some ' ') (Lib.Json.renderInt integer.value) []).any
        (wordAt same (letter :: rest)) = false := by
    intro same comparison letter rest letters different
    rw [List.any_eq_false]
    intro mark listed
    obtain ⟨char, inside, head⟩ := head_of_mem_plainMarks listed
    obtain digit | rfl := mem_renderInt inside
    · obtain ⟨others, shape⟩ : ∃ others, mark.rest = char :: others := by
        cases shape : mark.rest with
        | nil => simp [shape] at head
        | cons first others =>
          rw [shape] at head
          exact ⟨others, by rw [Option.some.inj head]⟩
      simp [wordAt, shape, different char _ digit]
    · simp [wordAt_other comparison (List.cons_ne_nil _ _) letters head (by decide)]
  have caseless : ∀ letter rest char others, letter.toLower.isDigit = false →
      char.isDigit = true → eqIgnoreAsciiCase (char :: others) (letter :: rest) = false := by
    intro letter rest char others isLetter digit
    apply not_word_of_head rfl
    intro same
    rw [toLower_of_isDigit digit] at same
    simp [← same, digit] at isLetter
  refine ⟨?_, fun _ => rfl, ?_, ?_, by simpa using renderInt_ne_nil _, ?_, ?_, ?_⟩
  · intro char inside
    apply (mem_renderInt inside).imp_left
    intro digit
    simp [isIdentifierChar, Char.isAlphanum, digit]
  · have shape : filterWords.all (fun word => word.all isIdentifierChar &&
        word.head?.any fun letter => !letter.toLower.isDigit) = true := by decide
    intro word listed
    have facts := List.all_eq_true.mp shape word listed
    cases word with
    | nil => simp at facts
    | cons letter rest =>
      simp only [List.all_eq_true, List.head?_cons, Option.any_some, Bool.and_eq_true,
        Bool.not_eq_true'] at facts
      exact noWord _ wordComparison_ignoreCase letter rest facts.1
        fun char others => caseless letter rest char others facts.2
  · have letters : reservedRowMarkerField.all isIdentifierChar = true := by decide
    apply noWord _ wordComparison_eq '_' _ (List.all_eq_true.mp letters)
    intro char others digit
    have different : char ≠ '_' := by
      rintro rfl
      exact absurd digit (by decide)
    simp [different]
  · intro char head
    rw [List.append_nil] at head
    exact solid char (List.mem_of_mem_head? head)
  · intro char last
    rw [List.append_nil] at last
    exact solid char (List.mem_of_getLast? last)
  · rw [List.append_nil]
    cases shape : Lib.Json.renderInt integer.value with
    | nil => exact absurd shape (renderInt_ne_nil _)
    | cons first rest =>
      have firstChar := mem_renderInt (shape ▸ List.mem_cons_self : first ∈ _)
      have lower : first.toLower = first := by
        obtain digit | rfl := firstChar
        · exact toLower_of_isDigit digit
        · decide
      have others : first ≠ 't' ∧ first ≠ 'f' ∧ first ≠ 'n' ∧ first ≠ quote := by
        refine ⟨?_, ?_, ?_, ?_⟩ <;>
        · rintro rfl
          exact absurd firstChar (by decide)
      have unquoted : parseQuotedString (first :: rest) = .ok none := by
        rw [parseQuotedString, if_pos (by simpa using others.2.2.2)]
      rw [← shape, parse_value trimmed (by rw [shape]; rfl)
        (by rw [lower]; exact ⟨others.1, others.2.1, others.2.2.1⟩), shape, unquoted, ← shape,
        Except.bind, parse_renderInt]

end KrabkaGateway.Filter
