import Mathlib.Tactic.IntervalCases
import KrabkaGateway.Filter.Compile

/-!
# Words of a filter text

Where the words of a text stand. A word found by `wordAt` is a whole run of
identifier characters, so in a dotted path it is one of the segments.
-/

namespace KrabkaGateway.Filter

open Lib Lib.Quoted

/-! ## Identifier characters -/

variable {char : Char}

theorem identifierChar_code (identifier : isIdentifierChar char = true) :
    48 ≤ char.toNat ∧ char.toNat ≤ 122 := by
  unfold isIdentifierChar Char.isAlphanum Char.isAlpha Char.isUpper Char.isLower at identifier
  simp only [Char.isDigit, Bool.or_eq_true, Bool.and_eq_true, beq_iff_eq, decide_eq_true_eq,
    UInt32.le_iff_toNat_le, ge_iff_le] at identifier
  obtain rfl | ((bounds | bounds) | bounds) := identifier
  · decide
  all_goals
    have lower : 48 ≤ char.val.toNat := le_trans (by decide) bounds.1
    have upper : char.val.toNat ≤ 122 := le_trans bounds.2 (by decide)
    exact ⟨lower, upper⟩

theorem isIdentifierChar_toLower (char : Char) :
    isIdentifierChar char.toLower = isIdentifierChar char := by
  by_cases upper : char.isUpper
  · have bounds : 65 ≤ char.toNat ∧ char.toNat ≤ 90 := by
      unfold Char.isUpper at upper
      simpa [UInt32.le_iff_toNat_le] using upper
    obtain ⟨lower, higher⟩ := bounds
    rw [← Char.ofNat_toNat char]
    generalize char.toNat = code at lower higher
    interval_cases code <;> decide
  · have same : char.toLower = char := by
      unfold Char.isUpper at upper
      rw [decide_eq_true_eq] at upper
      unfold Char.toLower
      exact dif_neg upper
    rw [same]

theorem isIdentifierChar_of_isAlpha (alpha : char.isAlpha = true) :
    isIdentifierChar char = true := by
  simp [isIdentifierChar, Char.isAlphanum, alpha]

theorem not_whitespace_of_identifierChar (identifier : isIdentifierChar char = true) :
    isWhitespace char = false := by
  obtain ⟨lower, upper⟩ := identifierChar_code identifier
  simp only [isWhitespace, Bool.or_eq_false_iff, Bool.and_eq_false_iff, decide_eq_false_iff_not,
    beq_eq_false_iff_ne, ne_eq]
  omega

theorem all_of_isIdentifier {text : List Char} (identifier : isIdentifier text = true) :
    text ≠ [] ∧ ∀ char ∈ text, isIdentifierChar char = true := by
  cases text with
  | nil => contradiction
  | cons first rest =>
    simp only [isIdentifier, Bool.and_eq_true, Bool.or_eq_true, beq_iff_eq,
      List.all_eq_true] at identifier
    refine ⟨List.cons_ne_nil _ _, ?_⟩
    intro char inside
    obtain rfl | later := List.mem_cons.mp inside
    · obtain rfl | alpha := identifier.1
      · decide
      · exact isIdentifierChar_of_isAlpha alpha
    · exact identifier.2 char later

/-! ## Comparing words -/

structure WordComparison (same : List Char → List Char → Bool) : Prop where
  length : ∀ {left right}, same left right = true → left.length = right.length
  identifier : ∀ {left right}, same left right = true →
    (∀ char ∈ right, isIdentifierChar char = true) → ∀ char ∈ left, isIdentifierChar char = true

theorem wordComparison_eq : WordComparison fun left right => left == right where
  length same := by rw [beq_iff_eq.mp same]
  identifier same identifiers := by rwa [beq_iff_eq.mp same]

theorem wordComparison_ignoreCase : WordComparison eqIgnoreAsciiCase where
  length same := by
    have lengths := congrArg List.length (beq_iff_eq.mp same)
    simpa using lengths
  identifier := by
    intro left right same identifiers char inside
    have lowered : char.toLower ∈ right.map Char.toLower := by
      rw [← beq_iff_eq.mp same]
      exact List.mem_map_of_mem inside
    obtain ⟨other, listed, equal⟩ := List.mem_map.mp lowered
    rw [← isIdentifierChar_toLower, ← equal, isIdentifierChar_toLower]
    exact identifiers other listed

section Runs

variable {same : List Char → List Char → Bool} (comparison : WordComparison same)
  {word : List Char} (nonempty : word ≠ []) (letters : ∀ char ∈ word, isIdentifierChar char = true)

include comparison nonempty letters

variable {mark : Mark}

theorem wordAt_other (head : mark.rest.head? = some char) (other : isIdentifierChar char = false) :
    wordAt same word mark = false := by
  by_contra found
  simp only [Bool.not_eq_false, wordAt, Bool.and_eq_true] at found
  have inside : char ∈ mark.rest.take word.length := by
    obtain ⟨rest, shape⟩ : ∃ rest, mark.rest = char :: rest := by
      cases shape : mark.rest with
      | nil => simp [shape] at head
      | cons first rest =>
        rw [shape] at head
        exact ⟨rest, by rw [Option.some.inj head]⟩
    obtain ⟨count, positive⟩ := Nat.exists_eq_succ_of_ne_zero
      (mt List.length_eq_zero_iff.mp nonempty)
    simp [shape, positive]
  have identifier := comparison.identifier found.1.1 letters char inside
  simp [other] at identifier

omit comparison nonempty letters in
theorem wordAt_inside (inside : mark.previous.any isIdentifierChar = true) :
    wordAt same word mark = false := by
  simp [wordAt, inside]

variable {after : List Char} {previous : Option Char}

omit nonempty in
theorem wordAt_run {run : List Char} (identifiers : ∀ char ∈ run, isIdentifierChar char = true)
    (bounded : after.head?.any isIdentifierChar = false)
    (outside : previous.any isIdentifierChar = false) :
    wordAt same word ⟨previous, run ++ after⟩ = same run word := by
  obtain shorter | equal | longer := lt_trichotomy word.length run.length
  · -- The run goes on after the word.
    have goesOn : ((run ++ after).drop word.length).head?.any isIdentifierChar = true := by
      rw [List.drop_append_of_le_length (le_of_lt shorter), List.head?_append,
        List.head?_drop, List.getElem?_eq_getElem shorter]
      simpa using identifiers _ (List.getElem_mem shorter)
    have different : same run word = false := by
      by_contra found
      have := comparison.length (Bool.not_eq_false _ ▸ found)
      omega
    simp only [wordAt, goesOn, different, Bool.not_true, Bool.and_false]
  · have taken : (run ++ after).take word.length = run := by rw [equal, List.take_left]
    have left : (run ++ after).drop word.length = after := by rw [equal, List.drop_left]
    simp only [wordAt, taken, left, bounded, outside, Bool.not_false, Bool.and_true]
  · -- The word would have to reach past the end of the run.
    have different : same run word = false := by
      by_contra found
      have := comparison.length (Bool.not_eq_false _ ▸ found)
      omega
    rw [different]
    by_contra found
    simp only [Bool.not_eq_false, wordAt, Bool.and_eq_true] at found
    have lengths := comparison.length found.1.1
    cases after with
    | nil =>
      simp only [List.append_nil, List.length_take] at lengths
      omega
    | cons next rest =>
      have inside : next ∈ (run ++ next :: rest).take word.length := by
        rw [List.take_append]
        apply List.mem_append_right
        obtain ⟨count, positive⟩ := Nat.exists_eq_add_of_lt longer
        rw [show word.length - run.length = count + 1 by omega]
        exact List.mem_cons_self
      have identifier := comparison.identifier found.1.1 letters next inside
      simp [identifier] at bounded

omit comparison nonempty letters in
theorem any_wordAt_inside {run tail : List Char}
    (identifiers : ∀ char ∈ run, isIdentifierChar char = true)
    (inside : previous.any isIdentifierChar = true) :
    (plainMarks previous run tail).any (wordAt same word) = false := by
  induction run generalizing previous with
  | nil => rfl
  | cons char rest ih =>
    rw [plainMarks, List.any_cons, wordAt_inside inside, Bool.false_or]
    apply ih
    · intro other later
      exact identifiers other (List.mem_cons_of_mem _ later)
    · simpa using identifiers char List.mem_cons_self

omit nonempty in
theorem any_wordAt_run {run : List Char} (some_run : run ≠ [])
    (identifiers : ∀ char ∈ run, isIdentifierChar char = true)
    (bounded : after.head?.any isIdentifierChar = false)
    (outside : previous.any isIdentifierChar = false) :
    (plainMarks previous run after).any (wordAt same word) = same run word := by
  have whole := wordAt_run comparison letters identifiers bounded outside
  cases run with
  | nil => contradiction
  | cons char rest =>
    rw [plainMarks, List.any_cons, ← List.cons_append, whole, any_wordAt_inside, Bool.or_false]
    · intro other later
      exact identifiers other (List.mem_cons_of_mem _ later)
    · simpa using identifiers char List.mem_cons_self

theorem any_wordAt_path {segments : List (List Char)}
    (identifiers : ∀ segment ∈ segments, isIdentifier segment = true)
    (bounded : after.head?.any isIdentifierChar = false)
    (outside : previous.any isIdentifierChar = false) :
    (plainMarks previous (['.'].intercalate segments) after).any (wordAt same word) =
      segments.any fun segment => same segment word := by
  induction segments generalizing previous with
  | nil => rfl
  | cons segment others ih =>
    obtain ⟨some_run, chars⟩ := all_of_isIdentifier (identifiers segment List.mem_cons_self)
    have later : ∀ other ∈ others, isIdentifier other = true :=
      fun other listed => identifiers other (List.mem_cons_of_mem _ listed)
    cases others with
    | nil =>
      rw [List.intercalate_singleton, any_wordAt_run comparison letters some_run chars bounded
        outside]
      simp
    | cons next rest =>
      have shape : ['.'].intercalate (segment :: next :: rest) =
          segment ++ '.' :: ['.'].intercalate (next :: rest) := by
        simp [List.intercalate]
      obtain ⟨last, split⟩ := plainMarks_append previous segment
        ('.' :: ['.'].intercalate (next :: rest)) after
      rw [shape, split, List.any_append, plainMarks, List.any_cons,
        any_wordAt_run comparison letters some_run chars (by rfl) outside,
        wordAt_other comparison nonempty letters rfl (by decide), Bool.false_or,
        ih later (by decide)]
      rfl

end Runs

end KrabkaGateway.Filter
