import KrabkaGateway.Lib.Quoted

/-!
# SQL text

Text with quoted parts of two kinds: strings in single quotes and identifiers in double
quotes. In both a doubled quote stands for one quote of the text. `identifiers` lists the
identifiers of a text, those in quotes and those that are words, each with the place it
stands at; a word names the column in lower-case letters.
-/

namespace Lib.SqlText

open Lib.Quoted

def doubleQuote : Char := '"'

/-! ## Parts -/

/-- The part of a text that a place is in. -/
inductive Part where
  | plain
  | string
  | identifier
  deriving DecidableEq, Repr

def Part.next (part : Part) (char : Char) : Part :=
  match part with
  | .plain =>
    if char = quote then .string else if char = doubleQuote then .identifier else .plain
  | .string => if char = quote then .plain else .string
  | .identifier => if char = doubleQuote then .plain else .identifier

/-! ## Identifiers -/

structure Dialect where
  word : Char → Bool
  quote_apart : word quote = false
  doubleQuote_apart : word doubleQuote = false

structure Identifier where
  /-- The name as it is written, without quotes. -/
  name : List Char
  quoted : Bool
  /-- The place of the name. -/
  mark : Mark
  deriving DecidableEq, Repr

def Identifier.column (identifier : Identifier) : List Char :=
  if identifier.quoted then identifier.name else identifier.name.map Char.toLower

/-- The text of a quoted part from behind its first quote on, and what follows it. -/
def readQuoted (delimiter : Char) : List Char → List Char × List Char
  | [] => ([], [])
  | [char] => if char = delimiter then ([], []) else ([char], [])
  | char :: next :: more =>
    if char = delimiter then
      if next = delimiter then
        let later := readQuoted delimiter more
        (delimiter :: later.1, later.2)
      else ([], next :: more)
    else
      let later := readQuoted delimiter (next :: more)
      (char :: later.1, later.2)

/-- Every round takes a character, so that the length of the text is enough `fuel`. A run of word
characters that begins with a digit is a number. -/
def identifiersFrom (dialect : Dialect) : Nat → Option Char → List Char → List Identifier
  | 0, _, _ => []
  | _, _, [] => []
  | fuel + 1, previous, char :: rest =>
    if char = quote then identifiersFrom dialect fuel (some quote) (readQuoted quote rest).2
    else if char = doubleQuote then
      let (name, more) := readQuoted doubleQuote rest
      ⟨name, true, ⟨some doubleQuote, rest⟩⟩ ::
        identifiersFrom dialect fuel (some doubleQuote) more
    else if dialect.word char then
      let run := (char :: rest).takeWhile dialect.word
      let later := identifiersFrom dialect fuel run.getLast?
        ((char :: rest).dropWhile dialect.word)
      if char.isDigit then later else ⟨run, false, ⟨previous, char :: rest⟩⟩ :: later
    else identifiersFrom dialect fuel (some char) rest

def identifiers (dialect : Dialect) (text : List Char) : List Identifier :=
  identifiersFrom dialect text.length none text

variable {text : List Char}

theorem readQuoted_eq {delimiter : Char} (single : delimiter ∉ (readQuoted delimiter text).1) :
    ∃ after, text = (readQuoted delimiter text).1 ++ after ∧
      ∀ char, after.head? = some char → char = delimiter := by
  fun_induction readQuoted delimiter text with
  | case1 => exact ⟨[], rfl, by simp⟩
  | case2 => exact ⟨[delimiter], rfl, by simp⟩
  | case3 char => exact ⟨[], rfl, by simp⟩
  | case4 => simp at single
  | case5 next more => exact ⟨delimiter :: next :: more, rfl, by simp⟩
  | case6 char next more other later ih =>
    simp only [List.mem_cons, not_or] at single
    obtain ⟨after, whole, ends⟩ := ih single.2
    exact ⟨after, by rw [whole]; rfl, ends⟩

theorem head_dropWhile_not (word : Char → Bool) (text : List Char) :
    (text.dropWhile word).head?.any word = false := by
  have head := List.head?_dropWhile_not word text
  cases shape : (text.dropWhile word).head? with
  | none => rfl
  | some char =>
    rw [shape] at head
    exact head

variable {dialect : Dialect} {identifier : Identifier}

/-- An identifier whose name has no double quote stands at its place as it is named, with no word
character on either side. -/
theorem mark_of_mem_identifiersFrom (fuel : Nat) (previous : Option Char) (text : List Char) :
    previous.any dialect.word = false ∨ text.head?.any dialect.word = false →
    identifier ∈ identifiersFrom dialect fuel previous text → doubleQuote ∉ identifier.name →
    ∃ after, identifier.mark.rest = identifier.name ++ after ∧
      after.head?.any dialect.word = false ∧
      identifier.mark.previous.any dialect.word = false := by
  have quoteApart := dialect.quote_apart
  have doubleQuoteApart := dialect.doubleQuote_apart
  fun_induction identifiersFrom dialect fuel previous text with
  | case1 => simp
  | case2 => simp
  | case3 fuel previous rest ih =>
    exact fun _ => ih (Or.inl (by simpa using quoteApart))
  | case4 fuel previous rest name more read _ ih =>
    intro _ listed single
    obtain rfl | later := List.mem_cons.mp listed
    · have content : (readQuoted doubleQuote rest).1 = name := by rw [read]
      obtain ⟨after, whole, ends⟩ := readQuoted_eq (content ▸ single)
      refine ⟨after, content ▸ whole, ?_, by simpa using doubleQuoteApart⟩
      cases shape : after.head? with
      | none => rfl
      | some char =>
        rw [ends char shape]
        exact doubleQuoteApart
    · exact ih (Or.inl (by simpa using doubleQuoteApart)) later single
  | case5 fuel previous char rest _ _ isWord run _ _ ih =>
    exact fun _ => ih (Or.inr (head_dropWhile_not ..))
  | case6 fuel previous char rest _ _ isWord run _ _ ih =>
    intro outside listed single
    obtain rfl | later := List.mem_cons.mp listed
    · refine ⟨(char :: rest).dropWhile dialect.word, ?_, head_dropWhile_not .., ?_⟩
      · exact (List.takeWhile_append_dropWhile).symm
      · exact outside.resolve_right (by simp [isWord])
    · exact ih (Or.inr (head_dropWhile_not ..)) later single
  | case7 fuel previous char rest _ _ notWord ih =>
    exact fun _ => ih (Or.inl (by simpa using notWord))

theorem mark_of_mem_identifiers (listed : identifier ∈ identifiers dialect text)
    (single : doubleQuote ∉ identifier.name) :
    ∃ after, identifier.mark.rest = identifier.name ++ after ∧
      after.head?.any dialect.word = false ∧
      identifier.mark.previous.any dialect.word = false :=
  mark_of_mem_identifiersFrom _ _ _ (Or.inl rfl) listed single

end Lib.SqlText
