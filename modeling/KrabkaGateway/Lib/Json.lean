import Mathlib.Data.List.Basic
import Mathlib.Data.List.TakeWhile
import Mathlib.Tactic.Common

/-!
# JSON text

Values, the compact text form of a value and a reader for JSON text. Numbers
are integers: a literal with a fraction or an exponent is refused. The main
result is that reading the text of a value gives the value back.
-/

namespace Lib

inductive Json where
  | null
  | bool (value : Bool)
  | number (value : Int)
  | string (text : String)
  | array (items : List Json)
  | object (members : List (String × Json))

namespace Json

/-! ## Writing -/

/-- One character of a string literal. -/
def renderChar (char : Char) : List Char :=
  if char = '"' then ['\\', '"']
  else if char = '\\' then ['\\', '\\']
  else if char = '\n' then ['\\', 'n']
  else if char = '\r' then ['\\', 'r']
  else if char = '\t' then ['\\', 't']
  else if char = '\x08' then ['\\', 'b']
  else if char = '\x0c' then ['\\', 'f']
  else if char.toNat < 32 then
    ['\\', 'u', '0', '0', Nat.digitChar (char.toNat / 16), Nat.digitChar (char.toNat % 16)]
  else [char]

def renderChars (chars : List Char) : List Char :=
  chars.flatMap renderChar

def renderString (text : String) : List Char :=
  '"' :: (renderChars text.toList ++ ['"'])

def renderInt (value : Int) : List Char :=
  if value < 0 then '-' :: Nat.toDigits 10 value.natAbs else Nat.toDigits 10 value.natAbs

mutual

def render : Json → List Char
  | .null => ['n', 'u', 'l', 'l']
  | .bool true => ['t', 'r', 'u', 'e']
  | .bool false => ['f', 'a', 'l', 's', 'e']
  | .number value => renderInt value
  | .string text => renderString text
  | .array items => '[' :: (renderItems items ++ [']'])
  | .object members => '{' :: (renderMembers members ++ ['}'])

def renderItems : List Json → List Char
  | [] => []
  | [item] => render item
  | item :: next :: rest => render item ++ ',' :: renderItems (next :: rest)

def renderMembers : List (String × Json) → List Char
  | [] => []
  | [(name, value)] => renderString name ++ ':' :: render value
  | (name, value) :: next :: rest =>
    renderString name ++ ':' :: (render value ++ ',' :: renderMembers (next :: rest))

end

/-! ## Reading -/

def isSpace (char : Char) : Bool :=
  char = ' ' || char = '\n' || char = '\r' || char = '\t'

def skipSpaces (chars : List Char) : List Char :=
  chars.dropWhile isSpace

/-- The value of a hexadecimal digit. -/
def hexValue (char : Char) : Option Nat :=
  if '0' ≤ char ∧ char ≤ '9' then some (char.toNat - '0'.toNat)
  else if 'a' ≤ char ∧ char ≤ 'f' then some (char.toNat - 'a'.toNat + 10)
  else if 'A' ≤ char ∧ char ≤ 'F' then some (char.toNat - 'A'.toNat + 10)
  else none

def readHex : List Char → Option (Nat × List Char)
  | first :: second :: third :: fourth :: rest => do
      let first ← hexValue first
      let second ← hexValue second
      let third ← hexValue third
      let fourth ← hexValue fourth
      some (((first * 16 + second) * 16 + third) * 16 + fourth, rest)
  | _ => none

/-- The character of a `\u` escape, which may need a second surrogate. -/
def readUnicode (chars : List Char) : Option (Char × List Char) :=
  match readHex chars with
  | none => none
  | some (code, rest) =>
    if 0xD800 ≤ code ∧ code < 0xDC00 then
      match rest with
      | '\\' :: 'u' :: rest =>
        match readHex rest with
        | some (low, rest) =>
          if 0xDC00 ≤ low ∧ low < 0xE000 then
            some (Char.ofNat (0x10000 + (code - 0xD800) * 0x400 + (low - 0xDC00)), rest)
          else none
        | none => none
      | _ => none
    else if 0xDC00 ≤ code ∧ code < 0xE000 then none
    else some (Char.ofNat code, rest)

def readEscape : List Char → Option (Char × List Char)
  | [] => none
  | char :: rest =>
    if char = '"' then some ('"', rest)
    else if char = '\\' then some ('\\', rest)
    else if char = '/' then some ('/', rest)
    else if char = 'n' then some ('\n', rest)
    else if char = 'r' then some ('\r', rest)
    else if char = 't' then some ('\t', rest)
    else if char = 'b' then some ('\x08', rest)
    else if char = 'f' then some ('\x0c', rest)
    else if char = 'u' then readUnicode rest
    else none

/-- The next character of a string literal, or `none` at its closing quote. -/
def readChar : List Char → Option (Option Char × List Char)
  | [] => none
  | char :: rest =>
    if char = '"' then some (none, rest)
    else if char = '\\' then (readEscape rest).map fun (char, rest) => (some char, rest)
    else if char.toNat < 32 then none
    else some (some char, rest)

/-- The characters of a string literal behind its opening quote. -/
def readChars : Nat → List Char → Option (List Char × List Char)
  | 0, _ => none
  | fuel + 1, chars =>
    match readChar chars with
    | none => none
    | some (none, rest) => some ([], rest)
    | some (some char, rest) =>
      (readChars fuel rest).map fun (chars, rest) => (char :: chars, rest)

/-- A number without a sign. Leading zeros are refused, and so is anything
that would make the literal a decimal one. -/
def readNat (chars : List Char) : Option (Nat × List Char) :=
  let digits := chars.takeWhile Char.isDigit
  let rest := chars.dropWhile Char.isDigit
  let value := Nat.ofDigitChars 10 digits 0
  if Nat.toDigits 10 value = digits ∧ rest.head? ∉ [some '.', some 'e', some 'E'] then
    some (value, rest)
  else none

def readWord : List Char → Option (Json × List Char)
  | 'n' :: 'u' :: 'l' :: 'l' :: rest => some (.null, rest)
  | 't' :: 'r' :: 'u' :: 'e' :: rest => some (.bool true, rest)
  | 'f' :: 'a' :: 'l' :: 's' :: 'e' :: rest => some (.bool false, rest)
  | _ => none

def readName (fuel : Nat) (chars : List Char) : Option (String × List Char) :=
  match skipSpaces chars with
  | [] => none
  | quote :: rest =>
    if quote = '"' then
      match readChars fuel rest with
      | none => none
      | some (name, rest) =>
        match skipSpaces rest with
        | [] => none
        | colon :: rest =>
          if colon = ':' then some (String.ofList name, rest) else none
    else none

mutual

def readValue : Nat → List Char → Option (Json × List Char)
  | 0, _ => none
  | fuel + 1, chars =>
    match skipSpaces chars with
    | [] => none
    | char :: rest =>
      if char = '"' then
        (readChars fuel rest).map fun (text, rest) => (.string (String.ofList text), rest)
      else if char = '[' then
        match skipSpaces rest with
        | [] => none
        | next :: more =>
          if next = ']' then some (.array [], more)
          else (readItems fuel (next :: more)).map fun (items, rest) => (.array items, rest)
      else if char = '{' then
        match skipSpaces rest with
        | [] => none
        | next :: more =>
          if next = '}' then some (.object [], more)
          else
            (readMembers fuel (next :: more)).map fun (members, rest) =>
              (.object members, rest)
      else if char = '-' then
        match readNat rest with
        | some (value + 1, rest) => some (.number (Int.negSucc value), rest)
        | _ => none
      else if char.isDigit then
        (readNat (char :: rest)).map fun (value, rest) => (.number value, rest)
      else readWord (char :: rest)

/-- The items of an array up to its closing bracket. -/
def readItems : Nat → List Char → Option (List Json × List Char)
  | 0, _ => none
  | fuel + 1, chars =>
    match readValue fuel chars with
    | none => none
    | some (item, rest) =>
      match skipSpaces rest with
      | [] => none
      | next :: rest =>
        if next = ',' then
          (readItems fuel rest).map fun (items, rest) => (item :: items, rest)
        else if next = ']' then some ([item], rest)
        else none

/-- The members of an object up to its closing brace. -/
def readMembers : Nat → List Char → Option (List (String × Json) × List Char)
  | 0, _ => none
  | fuel + 1, chars =>
    match readName fuel chars with
    | none => none
    | some (name, rest) =>
      match readValue fuel rest with
      | none => none
      | some (value, rest) =>
        match skipSpaces rest with
        | [] => none
        | next :: rest =>
          if next = ',' then
            (readMembers fuel rest).map fun (members, rest) =>
              ((name, value) :: members, rest)
          else if next = '}' then some ([(name, value)], rest)
          else none

end

/-- Read a whole text. -/
def parse (chars : List Char) : Option Json :=
  match readValue (chars.length + 1) chars with
  | some (value, rest) => if skipSpaces rest = [] then some value else none
  | none => none

/-! ## Reading back -/

theorem hexValue_digitChar : ∀ digit < 16, hexValue (Nat.digitChar digit) = some digit := by
  decide

variable {char : Char}

theorem readUnicode_control (control : char.toNat < 32) (rest : List Char) :
    readUnicode ('0' :: '0' :: Nat.digitChar (char.toNat / 16) ::
      Nat.digitChar (char.toNat % 16) :: rest) = some (char, rest) := by
  have zero : hexValue '0' = some 0 := by decide
  have high := hexValue_digitChar (char.toNat / 16) (by omega)
  have low := hexValue_digitChar (char.toNat % 16) (by omega)
  have code : ((0 * 16 + 0) * 16 + char.toNat / 16) * 16 + char.toNat % 16 = char.toNat := by
    omega
  have hex : readHex ('0' :: '0' :: Nat.digitChar (char.toNat / 16) ::
      Nat.digitChar (char.toNat % 16) :: rest) = some (char.toNat, rest) := by
    simp only [readHex, zero, high, low, Option.bind_eq_bind, Option.bind_some, code]
  have noHigh : ¬ (0xD800 ≤ char.toNat ∧ char.toNat < 0xDC00) := by omega
  have noLow : ¬ (0xDC00 ≤ char.toNat ∧ char.toNat < 0xE000) := by omega
  simp only [readUnicode, hex, noHigh, noLow, if_false, Char.ofNat_toNat]

theorem readChar_renderChar (char : Char) (rest : List Char) :
    readChar (renderChar char ++ rest) = some (some char, rest) := by
  unfold renderChar
  split
  next quote => simp [readChar, readEscape, quote]
  next notQuote =>
    split
    next backslash => simp [readChar, readEscape, backslash]
    next notBackslash =>
      split
      next newline => simp [readChar, readEscape, newline]
      split
      next return_ => simp [readChar, readEscape, return_]
      split
      next tab => simp [readChar, readEscape, tab]
      split
      next backspace => simp [readChar, readEscape, backspace]
      split
      next formFeed => simp [readChar, readEscape, formFeed]
      split
      next control => simp [readChar, readEscape, readUnicode_control control]
      next printable => simp [readChar, notQuote, notBackslash, printable]

variable {fuel : Nat}

theorem readChars_renderChars (chars rest : List Char) (enough : chars.length < fuel) :
    readChars fuel (renderChars chars ++ '"' :: rest) = some (chars, rest) := by
  induction chars generalizing fuel with
  | nil =>
    obtain ⟨fuel, rfl⟩ : ∃ less, fuel = less + 1 := ⟨fuel - 1, by simp at enough; omega⟩
    simp [renderChars, readChars, readChar]
  | cons char chars ih =>
    obtain ⟨fuel, rfl⟩ : ∃ less, fuel = less + 1 := ⟨fuel - 1, by simp at enough; omega⟩
    have less : chars.length < fuel := by simp at enough; omega
    have split : renderChars (char :: chars) ++ '"' :: rest =
        renderChar char ++ (renderChars chars ++ '"' :: rest) := by
      simp [renderChars]
    rw [split, readChars, readChar_renderChar]
    simp [ih less]

theorem length_le_renderChars (chars : List Char) : chars.length ≤ (renderChars chars).length := by
  induction chars with
  | nil => simp [renderChars]
  | cons char chars ih =>
    have positive : 1 ≤ (renderChar char).length := by
      unfold renderChar
      repeat' split
      all_goals simp
    have split : (renderChars (char :: chars)).length =
        (renderChar char).length + (renderChars chars).length := by
      simp [renderChars]
    simp only [List.length_cons]
    omega

/-- The text behind a value does not continue a number. -/
def Stops (rest : List Char) : Prop :=
  ∀ char, rest.head? = some char →
    char.isDigit = false ∧ char ≠ '.' ∧ char ≠ 'e' ∧ char ≠ 'E'

variable {rest : List Char}

theorem readNat_toDigits (value : Nat) (stops : Stops rest) :
    readNat (Nat.toDigits 10 value ++ rest) = some (value, rest) := by
  have digits : ∀ char ∈ Nat.toDigits 10 value, char.isDigit = true :=
    fun char inside => Nat.isDigit_of_mem_toDigits (by decide) (by decide) inside
  have stop : rest.takeWhile Char.isDigit = [] ∧ rest.dropWhile Char.isDigit = rest := by
    cases rest with
    | nil => simp
    | cons char rest => simp [(stops char rfl).1]
  have clean : rest.head? ∉ [some '.', some 'e', some 'E'] := by
    cases rest with
    | nil => simp
    | cons char rest => simpa using (stops char rfl).2
  simp only [readNat, List.takeWhile_append_of_pos digits, List.dropWhile_append_of_pos digits,
    stop.1, stop.2, List.append_nil, Nat.ofDigitChars_ten_toDigits, true_and]
  rw [if_pos clean]

theorem skipSpaces_cons (notSpace : isSpace char = false) (rest : List Char) :
    skipSpaces (char :: rest) = char :: rest := by
  simp [skipSpaces, notSpace]

theorem readValue_number (value : Int) (fuel : Nat) (stops : Stops rest) :
    readValue (fuel + 1) (renderInt value ++ rest) = some (.number value, rest) := by
  unfold renderInt
  split
  next negative =>
    obtain ⟨less, rfl⟩ := Int.eq_negSucc_of_lt_zero negative
    have digits := readNat_toDigits (less + 1) stops
    simp only [Int.natAbs_negSucc, Nat.succ_eq_add_one, List.cons_append]
    simp [readValue, skipSpaces, isSpace, digits]
  next natural =>
    have digits := readNat_toDigits value.natAbs stops
    have value_eq : ((value.natAbs : Nat) : Int) = value := Int.natAbs_of_nonneg (by omega)
    cases text : Nat.toDigits 10 value.natAbs with
    | nil => exact absurd text Nat.toDigits_ne_nil
    | cons first more =>
      have isDigit : first.isDigit = true :=
        Nat.isDigit_of_mem_toDigits (by decide) (by decide) (text ▸ List.mem_cons_self)
      have notSpace : isSpace first = false := by
        cases space : isSpace first with
        | false => rfl
        | true =>
          simp only [isSpace, Bool.or_eq_true, decide_eq_true_eq] at space
          rcases space with ((rfl | rfl) | rfl) | rfl <;> simp at isDigit
      have other : ∀ char : Char, char.isDigit = false → first ≠ char := by
        rintro char notDigit rfl
        simp [isDigit] at notDigit
      rw [text] at digits
      simp only [List.cons_append] at digits ⊢
      simp [readValue, skipSpaces, notSpace, other '"' (by decide), other '[' (by decide),
        other '{' (by decide), other '-' (by decide), isDigit, digits, value_eq]

theorem renderInt_head (value : Int) :
    ∃ first more, renderInt value = first :: more ∧ (first = '-' ∨ first.isDigit = true) := by
  unfold renderInt
  split
  next => exact ⟨'-', _, rfl, Or.inl rfl⟩
  next =>
    cases text : Nat.toDigits 10 value.natAbs with
    | nil => exact absurd text Nat.toDigits_ne_nil
    | cons first more =>
      exact ⟨first, more, rfl, Or.inr
        (Nat.isDigit_of_mem_toDigits (by decide) (by decide) (text ▸ List.mem_cons_self))⟩

/-- The first character of a value's text is neither a space nor a bracket
that closes. -/
theorem render_head (value : Json) :
    ∃ first more, render value = first :: more ∧ isSpace first = false ∧ first ≠ ']' := by
  cases value with
  | null => exact ⟨'n', _, rfl, by decide⟩
  | bool value => cases value <;> exact ⟨_, _, rfl, by decide⟩
  | number value =>
    obtain ⟨first, more, text, sign | digit⟩ := renderInt_head value
    · exact ⟨first, more, text, by rw [sign]; decide⟩
    · refine ⟨first, more, text, ?_, ?_⟩
      · cases space : isSpace first with
        | false => rfl
        | true =>
          simp only [isSpace, Bool.or_eq_true, decide_eq_true_eq] at space
          rcases space with ((rfl | rfl) | rfl) | rfl <;> simp at digit
      · rintro rfl
        simp at digit
  | string text => exact ⟨'"', _, rfl, by decide⟩
  | array items => exact ⟨'[', _, rfl, by decide⟩
  | object members => exact ⟨'{', _, rfl, by decide⟩

theorem stops_of_mem (separator : char ∈ [',', ']', '}']) : Stops (char :: rest) := by
  intro head isHead
  cases isHead
  revert separator
  simp only [List.mem_cons, List.not_mem_nil, or_false]
  rintro (rfl | rfl | rfl) <;> decide

theorem readName_render (name : String) (rest : List Char) (enough : name.toList.length < fuel) :
    readName fuel (renderString name ++ ':' :: rest) = some (name, rest) := by
  have chars := readChars_renderChars name.toList (':' :: rest) enough
  simp [readName, renderString, skipSpaces, isSpace, chars]

theorem renderItems_head (item : Json) (items : List Json) :
    ∃ first more, renderItems (item :: items) = first :: more ∧ isSpace first = false ∧
      first ≠ ']' := by
  obtain ⟨first, more, text, notSpace, notClose⟩ := render_head item
  cases items with
  | nil => exact ⟨first, more, by simp [renderItems, text], notSpace, notClose⟩
  | cons next items => exact ⟨first, _, by simp [renderItems, text]; rfl, notSpace, notClose⟩

theorem renderMembers_head (member : String × Json) (members : List (String × Json)) :
    ∃ more, renderMembers (member :: members) = '"' :: more := by
  cases members with
  | nil | cons => exact ⟨_, rfl⟩

mutual

theorem readValue_render : ∀ (value : Json) (fuel : Nat) (rest : List Char),
    (render value).length ≤ fuel → Stops rest →
      readValue (fuel + 1) (render value ++ rest) = some (value, rest)
  | .null, fuel, rest, _, _ => by
      simp [render, readValue, skipSpaces, isSpace, readWord]
  | .bool true, fuel, rest, _, _ => by
      simp [render, readValue, skipSpaces, isSpace, readWord]
  | .bool false, fuel, rest, _, _ => by
      simp [render, readValue, skipSpaces, isSpace, readWord]
  | .number value, fuel, rest, _, stops => readValue_number value fuel stops
  | .string text, fuel, rest, enough, _ => by
      have longer := length_le_renderChars text.toList
      simp only [render, renderString, List.length_cons, List.length_append,
        List.length_nil] at enough
      have chars : readChars fuel (renderChars text.toList ++ '"' :: rest) =
          some (text.toList, rest) := readChars_renderChars text.toList rest (by omega)
      simp [render, renderString, readValue, skipSpaces, isSpace, chars]
  | .array [], fuel, rest, _, _ => by
      simp [render, renderItems, readValue, skipSpaces, isSpace]
  | .array (item :: items), fuel, rest, enough, _ => by
      simp only [render, List.length_cons, List.length_append, List.length_nil] at enough
      obtain ⟨fuel, rfl⟩ : ∃ less, fuel = less + 1 := ⟨fuel - 1, by omega⟩
      have inside := readItems_render item items fuel rest (by omega)
      obtain ⟨first, more, text, notSpace, notClose⟩ := renderItems_head item items
      rw [text, List.cons_append] at inside
      simp only [render, text, List.cons_append, List.append_assoc, List.nil_append]
      rw [readValue, skipSpaces_cons (by decide)]
      simp [skipSpaces_cons notSpace, notClose, inside]
  | .object [], fuel, rest, _, _ => by
      simp [render, renderMembers, readValue, skipSpaces, isSpace]
  | .object (member :: members), fuel, rest, enough, _ => by
      simp only [render, List.length_cons, List.length_append, List.length_nil] at enough
      obtain ⟨fuel, rfl⟩ : ∃ less, fuel = less + 1 := ⟨fuel - 1, by omega⟩
      have inside := readMembers_render member members fuel rest (by omega)
      obtain ⟨more, text⟩ := renderMembers_head member members
      rw [text, List.cons_append] at inside
      simp only [render, text, List.cons_append, List.append_assoc, List.nil_append]
      rw [readValue, skipSpaces_cons (by decide)]
      simp [skipSpaces_cons, isSpace, inside]

theorem readItems_render : ∀ (item : Json) (items : List Json) (fuel : Nat) (rest : List Char),
    (renderItems (item :: items)).length + 1 ≤ fuel →
      readItems (fuel + 1) (renderItems (item :: items) ++ ']' :: rest) =
        some (item :: items, rest)
  | item, [], fuel, rest, enough => by
      simp only [renderItems] at enough ⊢
      obtain ⟨fuel, rfl⟩ : ∃ less, fuel = less + 1 := ⟨fuel - 1, by omega⟩
      have value := readValue_render item fuel (']' :: rest) (by omega) (stops_of_mem (by simp))
      rw [readItems, value]
      simp [skipSpaces_cons, isSpace]
  | item, next :: items, fuel, rest, enough => by
      simp only [renderItems, List.length_append, List.length_cons] at enough
      obtain ⟨fuel, rfl⟩ : ∃ less, fuel = less + 1 := ⟨fuel - 1, by omega⟩
      have value := readValue_render item fuel
        (',' :: (renderItems (next :: items) ++ ']' :: rest)) (by omega) (stops_of_mem (by simp))
      have later := readItems_render next items fuel rest (by omega)
      simp only [renderItems, List.append_assoc, List.cons_append]
      rw [readItems, value]
      simp [skipSpaces_cons, isSpace, later]

theorem readMembers_render : ∀ (member : String × Json) (members : List (String × Json))
    (fuel : Nat) (rest : List Char),
    (renderMembers (member :: members)).length + 1 ≤ fuel →
      readMembers (fuel + 1) (renderMembers (member :: members) ++ '}' :: rest) =
        some (member :: members, rest)
  | (name, item), [], fuel, rest, enough => by
      have longer := length_le_renderChars name.toList
      simp only [renderMembers, renderString, List.length_append, List.length_cons,
        List.length_nil] at enough
      obtain ⟨fuel, rfl⟩ : ∃ less, fuel = less + 1 := ⟨fuel - 1, by omega⟩
      have key : readName (fuel + 1) (renderString name ++ ':' :: (render item ++ '}' :: rest)) =
          some (name, render item ++ '}' :: rest) := readName_render name _ (by omega)
      have value := readValue_render item fuel ('}' :: rest) (by omega) (stops_of_mem (by simp))
      simp only [renderMembers, List.append_assoc, List.cons_append]
      rw [readMembers, key]
      simp [value, skipSpaces_cons, isSpace]
  | (name, item), next :: members, fuel, rest, enough => by
      have longer := length_le_renderChars name.toList
      simp only [renderMembers, renderString, List.length_append, List.length_cons,
        List.length_nil] at enough
      obtain ⟨fuel, rfl⟩ : ∃ less, fuel = less + 1 := ⟨fuel - 1, by omega⟩
      have key : readName (fuel + 1)
          (renderString name ++ ':' :: (render item ++ ',' ::
            (renderMembers (next :: members) ++ '}' :: rest))) =
          some (name, render item ++ ',' :: (renderMembers (next :: members) ++ '}' :: rest)) :=
        readName_render name _ (by omega)
      have value := readValue_render item fuel
        (',' :: (renderMembers (next :: members) ++ '}' :: rest)) (by omega)
        (stops_of_mem (by simp))
      have later := readMembers_render next members fuel rest (by omega)
      simp only [renderMembers, List.append_assoc, List.cons_append]
      rw [readMembers, key]
      simp [value, skipSpaces_cons, isSpace, later]

end

theorem parse_render (value : Json) : parse (render value) = some value := by
  have read := readValue_render value (render value).length [] (le_refl _) (by simp [Stops])
  rw [List.append_nil] at read
  simp [parse, read, skipSpaces]

/-! ## Nesting -/

mutual

/-- How many arrays and objects are nested in a value. -/
def depth : Json → Nat
  | .null => 0
  | .bool _ => 0
  | .number _ => 0
  | .string _ => 0
  | .array items => depthItems items + 1
  | .object members => depthMembers members + 1

def depthItems : List Json → Nat
  | [] => 0
  | item :: items => max (depth item) (depthItems items)

def depthMembers : List (String × Json) → Nat
  | [] => 0
  | (_, value) :: members => max (depth value) (depthMembers members)

end

theorem depthMembers_le {members : List (String × Json)} {bound : Nat} :
    depthMembers members ≤ bound ↔ ∀ member ∈ members, depth member.2 ≤ bound := by
  induction members with
  | nil => simp [depthMembers]
  | cons member members ih =>
    rw [depthMembers, Nat.max_le, ih, List.forall_mem_cons]

/-- A value inside this many arrays. -/
def nested : Nat → Json → Json
  | 0, value => value
  | levels + 1, value => .array [nested levels value]

theorem depth_nested (levels : Nat) (value : Json) :
    depth (nested levels value) = depth value + levels := by
  induction levels with
  | zero => rfl
  | succ levels ih =>
    rw [nested, depth, depthItems, depthItems, Nat.max_zero, ih, Nat.add_assoc]

end Json

end Lib
