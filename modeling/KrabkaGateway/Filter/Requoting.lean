import KrabkaGateway.Filter.Arrow
import KrabkaGateway.Lib.SqlText

/-!
# Quoting the names of columns

`quote_complex_arrow_field_references` puts double quotes around the names of columns
that have a dot or a bracket. SQL text has two kinds of quoted parts, strings and
identifiers, and the function knows only the first. What it should do is described by
`Rewrites`: quoted parts are copied and names outside them are put into quotes.
-/

namespace KrabkaGateway.Filter

open Lib.Quoted Lib.SqlText

/-! ## Rewritten texts -/

def Unquoted (text : List Char) : Prop :=
  quote ∉ text ∧ '"' ∉ text

/-- The second text is the first with some names outside quotes put into double quotes. -/
inductive Rewrites (names : List (List Char)) : Part → List Char → List Char → Prop where
  | nil (part : Part) : Rewrites names part [] []
  | keep {part : Part} {char : Char} {rest out : List Char}
      (later : Rewrites names (part.next char) rest out) :
      Rewrites names part (char :: rest) (char :: out)
  | name {name rest out : List Char} (listed : name ∈ names) (unquoted : Unquoted name)
      (later : Rewrites names .plain rest out) :
      Rewrites names .plain (name ++ rest) (doubleQuoted name ++ out)

theorem Rewrites.refl (names : List (List Char)) (part : Part) (text : List Char) :
    Rewrites names part text text := by
  induction text generalizing part with
  | nil => exact .nil part
  | cons char rest ih => exact .keep (ih _)

variable {name : List Char}

theorem doubleQuoted_of_unquoted (unquoted : Unquoted name) :
    doubleQuoted name = '"' :: (name ++ ['"']) := by
  have same : name.flatMap (fun char => if char = '"' then ['"', '"'] else [char]) = name := by
    induction name with
    | nil => rfl
    | cons char rest ih =>
      have other : char ≠ '"' := fun isQuote => unquoted.2 (isQuote ▸ List.mem_cons_self)
      have later : Unquoted rest := ⟨fun inside => unquoted.1 (List.mem_cons_of_mem _ inside),
        fun inside => unquoted.2 (List.mem_cons_of_mem _ inside)⟩
      rw [List.flatMap_cons, if_neg other, ih later]
      rfl
  rw [doubleQuoted, same]
  rfl

/-! ## Double quotes at the beginning -/

/-- How many double quotes a text begins with. -/
def leadingQuotes (text : List Char) : Nat :=
  (text.takeWhile (· == '"')).length

theorem leadingQuotes_quote (text : List Char) :
    leadingQuotes ('"' :: text) = leadingQuotes text + 1 := by
  simp [leadingQuotes]

theorem leadingQuotes_other {char : Char} (other : char ≠ '"') (text : List Char) :
    leadingQuotes (char :: text) = 0 := by
  simp [leadingQuotes, other]

section Rewritten

variable {names : List (List Char)} (filled : ∀ name ∈ names, name ≠ [])

include filled

variable {part : Part}

theorem Rewrites.leadingQuotes_le {text out : List Char}
    (rewritten : Rewrites names part text out) : leadingQuotes out ≤ leadingQuotes text + 1 := by
  induction rewritten with
  | nil => simp [leadingQuotes]
  | @keep part char rest out _ ih =>
    by_cases isQuote : char = '"'
    · subst isQuote
      rw [leadingQuotes_quote, leadingQuotes_quote]
      omega
    · rw [leadingQuotes_other isQuote, leadingQuotes_other isQuote]
      omega
  | @name name rest out listed unquoted _ _ =>
    obtain ⟨first, more, rfl⟩ := List.exists_cons_of_ne_nil (filled name listed)
    have other : first ≠ '"' := fun isQuote => unquoted.2 (isQuote ▸ List.mem_cons_self)
    rw [doubleQuoted_of_unquoted unquoted, List.cons_append, leadingQuotes_quote, List.cons_append,
      List.cons_append, leadingQuotes_other other]
    omega

theorem Rewrites.of_append {front text out : List Char}
    (rewritten : Rewrites names part (front ++ text) (front ++ out)) :
    Rewrites names (front.foldl Part.next part) text out := by
  induction front generalizing part with
  | nil => exact rewritten
  | cons char front ih =>
    generalize before : char :: front ++ text = source at rewritten
    generalize after : char :: front ++ out = target at rewritten
    cases rewritten with
    | nil => cases before
    | keep later =>
      cases before
      cases after
      exact ih later
    | @name name rest out listed unquoted later =>
      obtain ⟨first, more, rfl⟩ := List.exists_cons_of_ne_nil (filled name listed)
      rw [doubleQuoted_of_unquoted unquoted] at after
      have same : first = '"' := (List.cons.inj before).1.symm.trans (List.cons.inj after).1
      exact absurd (same ▸ List.mem_cons_self) unquoted.2

omit filled in
/-- A double quote that the text does not have is that of a name outside quotes. -/
theorem Rewrites.name_of_quote {char : Char} (other : char ≠ '"') {text out : List Char}
    (rewritten : Rewrites names part (char :: text) ('"' :: out)) :
    part = .plain ∧
      ∃ name ∈ names, Unquoted name ∧ ∃ more, '"' :: out = '"' :: (name ++ '"' :: more) := by
  generalize before : char :: text = source at rewritten
  generalize after : '"' :: out = target at rewritten
  cases rewritten with
  | nil => cases before
  | keep later =>
    cases before
    cases after
    exact absurd rfl other
  | @name name rest out listed unquoted later =>
    rw [doubleQuoted_of_unquoted unquoted]
    exact ⟨rfl, name, listed, unquoted, out, by simp⟩

end Rewritten

/-! ## The scan -/

def referencesField (names : List (List Char)) (previous : Option Char) (quoted : Bool)
    (text : List Char) : Bool :=
  (scan previous quoted text).1.any fun mark =>
    names.any fun name => startsWithFieldReference name mark

section Scan

variable {names : List (List Char)}

theorem referencesField_quote (previous : Option Char) (quoted : Bool) (rest : List Char) :
    referencesField names previous quoted (quote :: rest) =
      referencesField names (some quote) (!quoted) rest := by
  rw [referencesField, scan_quote]
  rfl

variable {char : Char}

theorem referencesField_inside (previous : Option Char) (plain : char ≠ quote) (rest : List Char) :
    referencesField names previous true (char :: rest) =
      referencesField names (some char) true rest := by
  rw [referencesField, scan_inside _ plain]
  rfl

theorem referencesField_outside (previous : Option Char) (plain : char ≠ quote) (rest : List Char) :
    referencesField names previous false (char :: rest) =
      ((names.any fun name => startsWithFieldReference name ⟨previous, char :: rest⟩) ||
        referencesField names (some char) false rest) := by
  rw [referencesField, scan_outside _ plain]
  rfl

theorem find_eq_none_of_any {mark : Mark}
    (nowhere : (names.any fun name => startsWithFieldReference name mark) = false) :
    (names.find? fun name => startsWithFieldReference name mark) = none := by
  rw [List.find?_eq_none]
  intro name listed
  simpa using List.any_eq_false.mp nowhere name listed

theorem quoteFrom_of_unreferenced (fuel : Nat) (previous : Option Char) (quoted : Bool)
    (text : List Char) : referencesField names previous quoted text = false →
      quoteFrom names fuel previous quoted text = text := by
  fun_induction quoteFrom names fuel previous quoted text with
  | case1 => exact fun _ => rfl
  | case2 => exact fun _ => rfl
  | case3 fuel previous quoted rest doubled ih =>
    intro nowhere
    obtain ⟨rfl, head⟩ := doubled
    obtain ⟨more, rfl⟩ := List.head?_eq_some_iff.mp head
    rw [referencesField_quote, referencesField_quote] at nowhere
    rw [ih nowhere]
    rfl
  | case4 fuel previous quoted rest single ih =>
    intro nowhere
    rw [referencesField_quote] at nowhere
    rw [ih nowhere]
  | case5 fuel previous char rest plain ih =>
    intro nowhere
    rw [referencesField_inside _ plain] at nowhere
    rw [ih nowhere]
  | case6 fuel previous quoted char rest plain outside name found ih =>
    intro nowhere
    rw [Bool.not_eq_true] at outside
    subst outside
    rw [referencesField_outside _ plain, Bool.or_eq_false_iff] at nowhere
    rw [find_eq_none_of_any nowhere.1] at found
    cases found
  | case7 fuel previous quoted char rest plain outside _ ih =>
    intro nowhere
    rw [Bool.not_eq_true] at outside
    subst outside
    rw [referencesField_outside _ plain, Bool.or_eq_false_iff] at nowhere
    rw [ih nowhere.2]

theorem length_le_doubleQuoted (name : List Char) :
    name.length + 2 ≤ (doubleQuoted name).length := by
  have inner : name.length ≤
      (name.flatMap fun char => if char = '"' then ['"', '"'] else [char]).length := by
    induction name with
    | nil => rfl
    | cons char rest ih =>
      rw [List.flatMap_cons, List.length_append]
      split <;> simp only [List.length_cons, List.length_nil] <;> omega
  simp only [doubleQuoted, List.length_cons, List.length_append, List.length_nil]
  omega

theorem length_le_quoteFrom (fuel : Nat) (previous : Option Char) (quoted : Bool)
    (text : List Char) : text.length ≤ (quoteFrom names fuel previous quoted text).length := by
  fun_induction quoteFrom names fuel previous quoted text with
  | case1 => exact le_refl _
  | case2 => exact le_refl _
  | case3 fuel previous quoted rest doubled ih =>
    rw [List.length_tail] at ih
    simp only [List.length_cons]
    omega
  | case4 => simpa using by assumption
  | case5 => simpa using by assumption
  | case6 fuel previous quoted char rest plain outside name found ih =>
    have longer := length_le_doubleQuoted name
    rw [List.length_drop] at ih
    rw [List.length_append]
    omega
  | case7 => simpa using by assumption

theorem quoteFrom_of_referenced (fuel : Nat) (previous : Option Char) (quoted : Bool)
    (text : List Char) : referencesField names previous quoted text = true → text.length ≤ fuel →
      ∃ front name rest out, name ∈ names ∧ text = front ++ (name ++ rest) ∧
        quoteFrom names fuel previous quoted text = front ++ (doubleQuoted name ++ out) ∧
        rest.length ≤ out.length ∧ (scan previous quoted front).2 = false := by
  fun_induction quoteFrom names fuel previous quoted text with
  | case1 previous quoted rest =>
    intro somewhere short
    obtain rfl : rest = [] := List.length_eq_zero_iff.mp (Nat.le_zero.mp short)
    simp [referencesField, scan] at somewhere
  | case2 =>
    intro somewhere
    simp [referencesField, scan] at somewhere
  | case3 fuel previous quoted rest doubled ih =>
    intro somewhere short
    obtain ⟨rfl, head⟩ := doubled
    obtain ⟨more, rfl⟩ := List.head?_eq_some_iff.mp head
    rw [referencesField_quote, referencesField_quote] at somewhere
    obtain ⟨front, name, rest, out, listed, source, target, longer, closed⟩ :=
      ih somewhere (by simp at short ⊢; omega)
    refine ⟨quote :: quote :: front, name, rest, out, listed, ?_, ?_, longer, ?_⟩
    · rw [List.tail_cons] at source
      rw [source]
      rfl
    · rw [target]
      rfl
    · rw [scan_quote, scan_quote]
      exact closed
  | case4 fuel previous quoted rest single ih =>
    intro somewhere short
    rw [referencesField_quote] at somewhere
    obtain ⟨front, name, rest, out, listed, rfl, target, longer, closed⟩ :=
      ih somewhere (by simpa using short)
    refine ⟨quote :: front, name, rest, out, listed, rfl, by rw [target]; rfl, longer, ?_⟩
    rw [scan_quote]
    exact closed
  | case5 fuel previous char rest plain ih =>
    intro somewhere short
    rw [referencesField_inside _ plain] at somewhere
    obtain ⟨front, name, rest, out, listed, rfl, target, longer, closed⟩ :=
      ih somewhere (by simpa using short)
    refine ⟨char :: front, name, rest, out, listed, rfl, by rw [target]; rfl, longer, ?_⟩
    rw [scan_inside _ plain]
    exact closed
  | case6 fuel previous quoted char rest plain outside name found ih =>
    intro _ short
    have here := List.find?_some found
    simp only [startsWithFieldReference, wordAt, Bool.and_eq_true, beq_iff_eq] at here
    refine ⟨[], name, (char :: rest).drop name.length,
      quoteFrom names fuel name.getLast? quoted ((char :: rest).drop name.length),
      List.mem_of_find?_eq_some found, ?_, rfl, length_le_quoteFrom .., ?_⟩
    · conv_lhs => rw [← List.take_append_drop name.length (char :: rest), here.1.1]
      rfl
    · simpa [scan] using outside
  | case7 fuel previous quoted char rest plain outside nowhere ih =>
    intro somewhere short
    rw [Bool.not_eq_true] at outside
    subst outside
    have notHere : (names.any fun name => startsWithFieldReference name ⟨previous, char :: rest⟩) =
        false := by
      rw [List.any_eq_false]
      exact List.find?_eq_none.mp nowhere
    rw [referencesField_outside _ plain, notHere, Bool.false_or] at somewhere
    obtain ⟨front, name, rest, out, listed, rfl, target, longer, closed⟩ :=
      ih somewhere (by simpa using short)
    refine ⟨char :: front, name, rest, out, listed, rfl, by rw [target]; rfl, longer, ?_⟩
    rw [scan_outside _ plain]
    exact closed

end Scan

/-! ## Rewriting once and twice -/

/-- The names of columns that have a dot or a bracket. -/
def complexNames (schema : Schema) : List (List Char) :=
  (schema.map fun field => field.name.toList).filter isComplexName

theorem exists_other_of_complex (complex : isComplexName name = true) :
    ∃ char ∈ name, char ≠ '"' := by
  obtain ⟨char, inside, special⟩ := List.any_eq_true.mp complex
  refine ⟨char, inside, ?_⟩
  rintro rfl
  exact absurd special (by decide)

theorem referencesField_congr {first second : List (List Char)}
    (same : ∀ name, name ∈ first ↔ name ∈ second) (previous : Option Char) (quoted : Bool)
    (text : List Char) :
    referencesField first previous quoted text = referencesField second previous quoted text := by
  have each : ∀ mark, (first.any fun name => startsWithFieldReference name mark) =
      second.any fun name => startsWithFieldReference name mark := by
    intro mark
    rw [Bool.eq_iff_iff, List.any_eq_true, List.any_eq_true]
    exact exists_congr fun name => and_congr_left fun _ => same name
  simp only [referencesField, each]

variable {sql : List Char} {schema : Schema}

theorem quoteComplex_of_unreferenced
    (nowhere : referencesField (complexNames schema) none false sql = false) :
    quoteComplexArrowFieldReferences sql schema = sql := by
  rw [quoteComplexArrowFieldReferences]
  split
  · rfl
  · exact quoteFrom_of_unreferenced _ _ _ _
      ((referencesField_congr (fun name => List.mem_mergeSort) none false sql).trans nowhere)

theorem quoteComplex_of_referenced
    (somewhere : referencesField (complexNames schema) none false sql = true) :
    ∃ front name rest out, name ∈ complexNames schema ∧ sql = front ++ (name ++ rest) ∧
      quoteComplexArrowFieldReferences sql schema = front ++ (doubleQuoted name ++ out) ∧
      rest.length ≤ out.length ∧ (scan none false front).2 = false := by
  have some_name : (complexNames schema).isEmpty = false := by
    cases shape : complexNames schema with
    | nil => simp [referencesField, shape] at somewhere
    | cons name names => rfl
  rw [quoteComplexArrowFieldReferences, if_neg (by simpa [complexNames] using some_name)]
  obtain ⟨front, name, rest, out, listed, parts⟩ := quoteFrom_of_referenced _ _ _ _
    ((referencesField_congr (fun name => List.mem_mergeSort) none false sql).trans somewhere)
    (le_refl _)
  exact ⟨front, name, rest, out, List.mem_mergeSort.mp listed, parts⟩

/-- A text is left alone exactly if it refers to no complex name. -/
theorem quoteComplex_eq_self_iff (sql : List Char) (schema : Schema) :
    quoteComplexArrowFieldReferences sql schema = sql ↔
      referencesField (complexNames schema) none false sql = false := by
  refine ⟨fun same => ?_, quoteComplex_of_unreferenced⟩
  by_contra somewhere
  obtain ⟨front, name, rest, out, _, source, target, longer, _⟩ :=
    quoteComplex_of_referenced (Bool.not_eq_false _ ▸ somewhere)
  have lengths := congrArg List.length (target.symm.trans (same.trans source))
  have quotes := length_le_doubleQuoted name
  simp only [List.length_append] at lengths
  omega

/-- A name in double quotes is a reference of its own. -/
theorem referencesField_doubleQuoted {names : List (List Char)} (listed : name ∈ names)
    (filled : name ≠ []) (unquoted : Unquoted name) {front : List Char}
    (closed : (scan none false front).2 = false) (more : List Char) :
    referencesField names none false (front ++ '"' :: (name ++ '"' :: more)) = true := by
  obtain ⟨first, rest, rfl⟩ := List.exists_cons_of_ne_nil filled
  have plain : first ≠ quote := fun isQuote => unquoted.1 (isQuote ▸ List.mem_cons_self)
  rw [referencesField, scan_append, closed, List.any_append, Bool.or_eq_true]
  right
  rw [scan_outside _ (by decide), List.cons_append, scan_outside _ plain]
  simp only [List.any_cons, Bool.or_eq_true, List.any_eq_true]
  refine Or.inr (Or.inl ⟨first :: rest, listed, ?_⟩)
  have taken : ((first :: rest) ++ '"' :: more).take (first :: rest).length = first :: rest :=
    List.take_left
  have next : ((first :: rest) ++ '"' :: more).drop (first :: rest).length = '"' :: more :=
    List.drop_left
  rw [List.cons_append] at taken next
  simp only [startsWithFieldReference, wordAt, taken, next]
  simp [isIdentifierChar]

theorem leadingQuotes_append (other : ∃ char ∈ name, char ≠ '"') (tail : List Char) :
    leadingQuotes (name ++ tail) = leadingQuotes name := by
  induction name with
  | nil => simp at other
  | cons first rest ih =>
    by_cases isQuote : first = '"'
    · subst isQuote
      have later : ∃ char ∈ rest, char ≠ '"' := by simpa using other
      rw [List.cons_append, leadingQuotes_quote, leadingQuotes_quote, ih later]
    · rw [List.cons_append, leadingQuotes_other isQuote, leadingQuotes_other isQuote]

theorem leadingQuotes_doubleQuoted (other : ∃ char ∈ name, char ≠ '"') (tail : List Char) :
    leadingQuotes (doubleQuoted name ++ tail) = 2 * leadingQuotes name + 1 := by
  have inner :
      leadingQuotes (name.flatMap (fun char => if char = '"' then ['"', '"'] else [char]) ++
      ('"' :: tail)) = 2 * leadingQuotes name := by
    induction name with
    | nil => simp at other
    | cons first rest ih =>
      by_cases isQuote : first = '"'
      · subst isQuote
        have later : ∃ char ∈ rest, char ≠ '"' := by simpa using other
        rw [List.flatMap_cons, if_pos rfl, List.append_assoc, List.cons_append, List.cons_append,
          List.nil_append, leadingQuotes_quote, leadingQuotes_quote, leadingQuotes_quote,
          ih later]
        omega
      · rw [List.flatMap_cons, if_neg isQuote, List.append_assoc, List.cons_append,
          leadingQuotes_other isQuote, leadingQuotes_other isQuote]
  have whole : doubleQuoted name ++ tail = '"' ::
      (name.flatMap (fun char => if char = '"' then ['"', '"'] else [char]) ++ ('"' :: tail)) := by
    simp [doubleQuoted]
  rw [whole, leadingQuotes_quote, inner]

/-- The text is rewritten only outside quotes, and once is enough, exactly if it refers to no column
with a dot or a bracket in its name. -/
theorem requoting_iff (sql : List Char) (schema : Schema) :
    Rewrites (complexNames schema) .plain sql (quoteComplexArrowFieldReferences sql schema) ∧
        quoteComplexArrowFieldReferences (quoteComplexArrowFieldReferences sql schema) schema =
          quoteComplexArrowFieldReferences sql schema ↔
      referencesField (complexNames schema) none false sql = false := by
  have complex : ∀ name ∈ complexNames schema, ∃ char ∈ name, char ≠ '"' :=
    fun name listed => exists_other_of_complex (List.mem_filter.mp listed).2
  have filled : ∀ name ∈ complexNames schema, name ≠ [] := by
    rintro name listed rfl
    obtain ⟨_, inside, _⟩ := complex _ listed
    exact absurd inside List.not_mem_nil
  constructor
  · rintro ⟨rewritten, twice⟩
    by_contra somewhere
    obtain ⟨front, name, rest, out, listed, source, target, _, closed⟩ :=
      quoteComplex_of_referenced (Bool.not_eq_false _ ▸ somewhere)
    have unreferenced := (quoteComplex_eq_self_iff _ schema).mp twice
    rw [target, source] at rewritten
    have later := rewritten.of_append filled
    -- The name does not begin with a double quote: there would be too many of them.
    have bound := later.leadingQuotes_le filled
    rw [leadingQuotes_doubleQuoted (complex name listed),
      leadingQuotes_append (complex name listed)]
      at bound
    obtain ⟨first, more, rfl⟩ := List.exists_cons_of_ne_nil (filled name listed)
    have other : first ≠ '"' := by
      rintro rfl
      rw [leadingQuotes_quote] at bound
      omega
    obtain ⟨_, inner, among, unquoted, remaining, shape⟩ := later.name_of_quote other
    have again := referencesField_doubleQuoted among (filled inner among) unquoted closed remaining
    rw [← shape] at again
    rw [target] at unreferenced
    exact absurd (again.symm.trans unreferenced) (by decide)
  · intro nowhere
    rw [quoteComplex_of_unreferenced nowhere]
    exact ⟨.refl .., quoteComplex_of_unreferenced nowhere⟩

def dottedColumn : Schema :=
  [⟨"order.total", .integer true 64, true, []⟩]

/-- A name that is already in double quotes is quoted once more, and a name that is quoted here is
quoted again the next time. -/
theorem quoted_column_is_quoted_again :
    quoteComplexArrowFieldReferences "\"order.total\" = 1".toList dottedColumn =
        "\"\"order.total\"\" = 1".toList ∧
      ¬ Rewrites (complexNames dottedColumn) .plain "\"order.total\" = 1".toList
        (quoteComplexArrowFieldReferences "\"order.total\" = 1".toList dottedColumn) ∧
      quoteComplexArrowFieldReferences
          (quoteComplexArrowFieldReferences "order.total = 1".toList dottedColumn) dottedColumn ≠
        quoteComplexArrowFieldReferences "order.total = 1".toList dottedColumn := by
  have target : quoteComplexArrowFieldReferences "\"order.total\" = 1".toList dottedColumn =
      "\"\"order.total\"\" = 1".toList := by decide +kernel
  refine ⟨target, ?_, by decide +kernel⟩
  rw [target]
  intro rewritten
  have filled : ∀ name ∈ complexNames dottedColumn, name ≠ [] := by decide +kernel
  have inside : Rewrites (complexNames dottedColumn) .plain
      (['"'] ++ 'o' :: "rder.total\" = 1".toList)
      (['"'] ++ '"' :: "order.total\"\" = 1".toList) := rewritten
  have outside := (inside.of_append filled).name_of_quote (by decide)
  exact absurd outside.1 (by decide)

end KrabkaGateway.Filter
