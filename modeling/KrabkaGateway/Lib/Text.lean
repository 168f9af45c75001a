import Mathlib.Data.List.DropRight

/-!
# Text

White space as Unicode has it, `Debug` texts, and byte strings that are text in UTF-8.
A byte string of ASCII characters is its own text. Different numbers have different
digits.
-/

namespace Lib

/-- The characters with the Unicode property `White_Space`. -/
def isWhitespace (char : Char) : Bool :=
  let code := char.toNat
  (9 ≤ code && code ≤ 13) || code == 32 || code == 0x85 || code == 0xA0 || code == 0x1680 ||
    (0x2000 ≤ code && code ≤ 0x200A) || code == 0x2028 || code == 0x2029 || code == 0x202F ||
    code == 0x205F || code == 0x3000

def trim (text : List Char) : List Char :=
  (text.dropWhile isWhitespace).rdropWhile isWhitespace

/-- How `Debug` writes a character of a string. Unprintable characters stay as they are. -/
def debugChar : Char → List Char
  | '"' => ['\\', '"']
  | '\\' => ['\\', '\\']
  | '\x00' => ['\\', '0']
  | '\t' => ['\\', 't']
  | '\n' => ['\\', 'n']
  | '\r' => ['\\', 'r']
  | char => [char]

def debugText (text : List Char) : String :=
  String.ofList ('"' :: (text.flatMap debugChar ++ ['"']))

def utf8Chars (bytes : List UInt8) : Option (List Char) :=
  (String.fromUTF8? ⟨bytes.toArray⟩).map String.toList

def asciiChar (byte : UInt8) : Char :=
  Char.ofNat byte.toNat

theorem utf8EncodeChar_asciiChar {byte : UInt8} (ascii : byte < 128) :
    String.utf8EncodeChar (asciiChar byte) = [byte] := by
  have small : byte.toNat < 128 := ascii
  have valid : byte.toNat.isValidChar := Or.inl (by omega)
  have char : asciiChar byte = Char.ofNatAux byte.toNat valid := dif_pos valid
  have code : (asciiChar byte).val.toNat = byte.toNat := by
    rw [char]
    rfl
  simp only [String.utf8EncodeChar, code]
  rw [if_pos (by omega), UInt8.ofNat_toNat]

theorem utf8Chars_ascii {bytes : List UInt8} (ascii : ∀ byte ∈ bytes, byte < 128) :
    utf8Chars bytes = some (bytes.map asciiChar) := by
  have bytesOf : (bytes.map asciiChar).flatMap String.utf8EncodeChar = bytes := by
    rw [List.flatMap_map]
    induction bytes with
    | nil => rfl
    | cons byte bytes ih =>
      rw [List.flatMap_cons, utf8EncodeChar_asciiChar (ascii byte List.mem_cons_self),
        ih fun byte member => ascii byte (List.mem_cons_of_mem _ member)]
      rfl
  have encoded : (⟨bytes.toArray⟩ : ByteArray) = (bytes.map asciiChar).utf8Encode := by
    apply ByteArray.ext
    rw [List.utf8Encode, bytesOf, List.data_toByteArray]
  have text : String.fromUTF8? ⟨bytes.toArray⟩ = some (String.ofList (bytes.map asciiChar)) := by
    rw [encoded]
    exact dif_pos (String.ofList (bytes.map asciiChar)).isValidUTF8
  rw [utf8Chars, text, Option.map_some, String.toList_ofList]

/-! ## Numbers -/

theorem toDigits_inj {number other : Nat} (same : Nat.toDigits 10 number = Nat.toDigits 10 other) :
    number = other := by
  rw [← Nat.ofDigitChars_ten_toDigits (n := number), same, Nat.ofDigitChars_ten_toDigits]

theorem numbered_inj {text : String} {number other : Nat}
    (same : text ++ toString number = text ++ toString other) : number = other := by
  have lists := congrArg String.toList same
  rw [String.toList_append, String.toList_append] at lists
  have digits : (toString number).toList = (toString other).toList := List.append_cancel_left lists
  refine toDigits_inj ?_
  rw [← Nat.toList_repr, ← Nat.toList_repr]
  exact digits

end Lib
