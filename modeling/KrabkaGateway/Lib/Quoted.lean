import Mathlib.Logic.Basic

/-!
# Text with quoted parts

A single quote opens or closes a quoted part, and two quotes in a row inside a
quoted part stand for one quote of its text. `scan` lists the places outside
quotes, which is where keywords and operators are looked for. `quoteText` writes
a text as a quoted part and `unescape` reads the inside of one.
-/

namespace Lib.Quoted

def quote : Char := '\''

/-- A place outside quotes: the character before it and the text from it on. -/
structure Mark where
  previous : Option Char
  rest : List Char
  deriving DecidableEq, Repr

/-- The places outside quotes, and whether the text ends inside a quoted part. -/
def scan : Option Char → Bool → List Char → List Mark × Bool
  | _, quoted, [] => ([], quoted)
  | previous, quoted, char :: rest =>
    if char = quote then
      if quoted ∧ rest.head? = some quote then
        match rest with
        | [] => ([], quoted)
        | next :: more => scan (some next) quoted more
      else scan (some char) (!quoted) rest
    else
      let later := scan (some char) quoted rest
      (if quoted then later.1 else ⟨previous, char :: rest⟩ :: later.1, later.2)

theorem scan_quote (previous : Option Char) (quoted : Bool) (rest : List Char) :
    scan previous quoted (quote :: rest) = scan (some quote) (!quoted) rest := by
  cases quoted with
  | false =>
    rw [scan.eq_def]
    simp
  | true =>
    rw [scan.eq_def]
    cases rest with
    | nil => simp
    | cons next more =>
      by_cases doubled : next = quote
      · subst doubled
        rw [scan.eq_def (some quote) _ (quote :: more)]
        simp
      · simp [doubled]

variable {char : Char}

theorem scan_outside (previous : Option Char) (plain : char ≠ quote) (rest : List Char) :
    scan previous false (char :: rest) =
      (⟨previous, char :: rest⟩ :: (scan (some char) false rest).1,
        (scan (some char) false rest).2) := by
  rw [scan.eq_def]
  simp [plain]

theorem scan_inside (previous : Option Char) (plain : char ≠ quote) (rest : List Char) :
    scan previous true (char :: rest) = scan (some char) true rest := by
  rw [scan.eq_def]
  simp [plain]

/-! ## Writing and reading a quoted part -/

def escape (text : List Char) : List Char :=
  text.flatMap fun char => if char = quote then [quote, quote] else [char]

def quoteText (text : List Char) : List Char :=
  quote :: (escape text ++ [quote])

def unescape : List Char → List Char
  | [] => []
  | char :: rest =>
    if char = quote ∧ rest.head? = some quote then
      match rest with
      | [] => []
      | _ :: more => quote :: unescape more
    else char :: unescape rest

theorem unescape_cons (plain : char ≠ quote) (rest : List Char) :
    unescape (char :: rest) = char :: unescape rest := by
  rw [unescape.eq_def]
  simp [plain]

theorem unescape_escape (text : List Char) : unescape (escape text) = text := by
  induction text with
  | nil => rfl
  | cons char rest ih =>
    by_cases isQuote : char = quote
    · subst isQuote
      have doubled : escape (quote :: rest) = quote :: quote :: escape rest := by simp [escape]
      rw [doubled]
      simp [unescape, ih]
    · have kept : escape (char :: rest) = char :: escape rest := by simp [escape, isQuote]
      rw [kept, unescape_cons isQuote, ih]

theorem scan_escape (previous : Option Char) (text : List Char) :
    scan previous true (escape text ++ [quote]) = ([], false) := by
  induction text generalizing previous with
  | nil => simp [escape, scan_quote, scan]
  | cons char rest ih =>
    by_cases isQuote : char = quote
    · subst isQuote
      have doubled : escape (quote :: rest) = quote :: quote :: escape rest := by simp [escape]
      rw [doubled, List.cons_append, List.cons_append, scan_quote, scan_quote]
      apply ih
    · have kept : escape (char :: rest) = char :: escape rest := by simp [escape, isQuote]
      rw [kept, List.cons_append, scan_inside _ isQuote]
      apply ih

theorem scan_quoteText (previous : Option Char) (text : List Char) :
    scan previous false (quoteText text) = ([], false) := by
  rw [quoteText, scan_quote]
  apply scan_escape

/-! ## Text before the quoted parts -/

/-- The places of a text without quotes that `tail` follows. -/
def plainMarks : Option Char → List Char → List Char → List Mark
  | _, [], _ => []
  | previous, char :: rest, tail =>
    ⟨previous, char :: (rest ++ tail)⟩ :: plainMarks (some char) rest tail

variable {plain tail : List Char}

theorem scan_plain (unquoted : quote ∉ plain)
    (empty : ∀ previous, scan previous false tail = ([], false)) (previous : Option Char) :
    scan previous false (plain ++ tail) = (plainMarks previous plain tail, false) := by
  induction plain generalizing previous with
  | nil => simp [empty, plainMarks]
  | cons char rest ih =>
    have here : char ≠ quote := fun isQuote => unquoted (isQuote ▸ List.mem_cons_self)
    have later : quote ∉ rest := fun inside => unquoted (List.mem_cons_of_mem _ inside)
    rw [List.cons_append, scan_outside _ here, ih later]
    rfl

variable {text : List Char}

theorem scan_unquoted (unquoted : quote ∉ text) (previous : Option Char) :
    scan previous false text = (plainMarks previous text [], false) := by
  have whole := scan_plain unquoted (fun previous => (rfl : scan previous false [] = _)) previous
  rwa [List.append_nil] at whole

variable {previous : Option Char} {mark : Mark}

theorem head_of_mem_plainMarks (listed : mark ∈ plainMarks previous plain tail) :
    ∃ char ∈ plain, mark.rest.head? = some char := by
  induction plain generalizing previous with
  | nil => simp [plainMarks] at listed
  | cons char rest ih =>
    obtain rfl | later := List.mem_cons.mp listed
    · exact ⟨char, List.mem_cons_self, rfl⟩
    · obtain ⟨found, inside, head⟩ := ih later
      exact ⟨found, List.mem_cons_of_mem _ inside, head⟩

theorem length_of_mem_plainMarks (listed : mark ∈ plainMarks previous plain tail) :
    tail.length < mark.rest.length := by
  induction plain generalizing previous with
  | nil => simp [plainMarks] at listed
  | cons char rest ih =>
    obtain rfl | later := List.mem_cons.mp listed
    · simp only [List.length_cons, List.length_append]
      omega
    · exact ih later

theorem plainMarks_append (previous : Option Char) (first second tail : List Char) :
    ∃ last, plainMarks previous (first ++ second) tail =
      plainMarks previous first (second ++ tail) ++ plainMarks last second tail := by
  induction first generalizing previous with
  | nil => exact ⟨previous, rfl⟩
  | cons char rest ih =>
    obtain ⟨last, split⟩ := ih (some char)
    refine ⟨last, ?_⟩
    rw [List.cons_append, plainMarks, split, plainMarks, List.append_assoc]
    rfl

/-! ## One text behind another -/

/-- The same place with more text behind. -/
def Mark.extend (tail : List Char) (mark : Mark) : Mark :=
  ⟨mark.previous, mark.rest ++ tail⟩

theorem scan_append (previous : Option Char) (quoted : Bool) (front back : List Char) :
    scan previous quoted (front ++ back) =
      ((scan previous quoted front).1.map (Mark.extend back) ++
          (scan (front.getLast?.or previous) (scan previous quoted front).2 back).1,
        (scan (front.getLast?.or previous) (scan previous quoted front).2 back).2) := by
  induction front generalizing previous quoted with
  | nil => simp [scan]
  | cons char rest ih =>
    have last : ((char :: rest).getLast?).or previous = rest.getLast?.or (some char) := by
      rw [List.getLast?_cons]
      cases rest.getLast? <;> rfl
    rw [last, List.cons_append]
    by_cases isQuote : char = quote
    · subst isQuote
      rw [scan_quote, scan_quote, ih]
    · cases quoted with
      | false =>
        rw [scan_outside _ isQuote, scan_outside _ isQuote, ih]
        rfl
      | true => rw [scan_inside _ isQuote, scan_inside _ isQuote, ih]

/-- A place is that of a character other than a quote, and the text from it on is the end of the
whole text. -/
theorem shape_of_mem_scan {quoted : Bool} (listed : mark ∈ (scan previous quoted text).1) :
    mark.rest <:+ text ∧ ∃ char more, mark.rest = char :: more ∧ char ≠ quote := by
  induction text generalizing previous quoted with
  | nil => simp [scan] at listed
  | cons char rest ih =>
    have later : ∀ {previous quoted}, mark ∈ (scan previous quoted rest).1 →
        mark.rest <:+ char :: rest ∧ ∃ char more, mark.rest = char :: more ∧ char ≠ quote :=
      fun listed => (ih listed).imp_left fun suffix =>
        suffix.trans (List.suffix_cons _ _)
    by_cases isQuote : char = quote
    · subst isQuote
      rw [scan_quote] at listed
      exact later listed
    · cases quoted with
      | false =>
        rw [scan_outside _ isQuote] at listed
        obtain rfl | listed := List.mem_cons.mp listed
        · exact ⟨List.suffix_rfl, char, rest, rfl, isQuote⟩
        · exact later listed
      | true =>
        rw [scan_inside _ isQuote] at listed
        exact later listed

end Lib.Quoted
