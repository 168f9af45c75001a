import Mathlib.Algebra.GroupWithZero.Nat
import KrabkaGateway.Lib.Json

/-!
# JSON bodies of typed values

A body is the UTF-8 form of a JSON text. This module gives the size of the body
of a value without writing it, and reads typed values back from bodies in the
manner of derived readers: members in any order, unknown members skipped,
repeated ones refused, absent optional ones empty.
-/

namespace Lib.Json

/-! ## Bodies -/

def encode (value : Json) : ByteArray :=
  (String.ofList (render value)).toUTF8

def decode (body : ByteArray) : Option Json :=
  (String.fromUTF8? body).bind (fun text => parse text.toList)

@[simp] theorem decode_encode (value : Json) : decode (encode value) = some value := by
  have valid : (String.ofList (render value)).toUTF8.IsValidUTF8 := String.isValidUTF8 _
  have text : String.fromUTF8? (encode value) = some (String.ofList (render value)) :=
    dif_pos valid
  rw [decode, text, Option.bind_some, String.toList_ofList, parse_render]

theorem decode_empty : decode .empty = none := by
  have text : String.fromUTF8? .empty = some "" := dif_pos ByteArray.isValidUTF8_empty
  rw [decode, text]
  rfl

/-! ## Sizes -/

/-- Bytes one character of a string literal takes. -/
def charSize (char : Char) : Nat :=
  if char ∈ ['"', '\\', '\n', '\r', '\t', '\x08', '\x0c'] then 2
  else if char.toNat < 32 then 6
  else char.utf8Size

def stringSize (text : String) : Nat :=
  2 + (text.toList.map charSize).sum

def numberSize (value : Int) : Nat :=
  (if value < 0 then 1 else 0) + (Nat.toDigits 10 value.natAbs).length

mutual

/-- Bytes of the body of a value. -/
def size : Json → Nat
  | .null => 4
  | .bool true => 4
  | .bool false => 5
  | .number value => numberSize value
  | .string text => stringSize text
  | .array items => 2 + itemsSize items
  | .object members => 2 + membersSize members

/-- Items with the commas between them. -/
def itemsSize : List Json → Nat
  | [] => 0
  | [item] => size item
  | item :: next :: rest => size item + 1 + itemsSize (next :: rest)

/-- Members with the colons in them and the commas between them. -/
def membersSize : List (String × Json) → Nat
  | [] => 0
  | [(name, value)] => stringSize name + 1 + size value
  | (name, value) :: next :: rest =>
    stringSize name + 1 + size value + 1 + membersSize (next :: rest)

end

def utf8Length (chars : List Char) : Nat :=
  (chars.map Char.utf8Size).sum

@[simp] theorem utf8Length_nil : utf8Length [] = 0 := rfl

@[simp] theorem utf8Length_cons (char : Char) (chars : List Char) :
    utf8Length (char :: chars) = char.utf8Size + utf8Length chars := by
  simp [utf8Length]

@[simp] theorem utf8Length_append (left right : List Char) :
    utf8Length (left ++ right) = utf8Length left + utf8Length right := by
  simp [utf8Length]

theorem size_utf8Encode (chars : List Char) : chars.utf8Encode.size = utf8Length chars := by
  induction chars with
  | nil => simp
  | cons char rest ih =>
    rw [List.utf8Encode_cons, ByteArray.size_append, ih]
    simp [List.utf8Encode_singleton, utf8Length_cons]

theorem utf8Length_ascii {chars : List Char} (ascii : ∀ char ∈ chars, char.utf8Size = 1) :
    utf8Length chars = chars.length := by
  induction chars with
  | nil => rfl
  | cons char rest ih =>
    rw [utf8Length_cons, ascii char (by simp),
      ih (fun other member => ascii other (by simp [member])),
      List.length_cons, Nat.add_comm]

theorem utf8Size_digitChar : ∀ digit < 16, (Nat.digitChar digit).utf8Size = 1 := by
  decide

theorem utf8Length_renderChar (char : Char) : utf8Length (renderChar char) = charSize char := by
  by_cases escaped : char ∈ ['"', '\\', '\n', '\r', '\t', '\x08', '\x0c']
  · rw [charSize, if_pos escaped]
    simp only [List.mem_cons, List.not_mem_nil, or_false] at escaped
    rcases escaped with rfl | rfl | rfl | rfl | rfl | rfl | rfl <;> rfl
  · simp only [charSize, if_neg escaped]
    simp only [List.mem_cons, List.not_mem_nil, or_false, not_or] at escaped
    obtain ⟨quote, slash, newline, return_, tab, back, feed⟩ := escaped
    simp only [renderChar, quote, slash, newline, return_, tab, back, feed, if_false]
    split
    · rename_i control
      simp only [utf8Length_cons, utf8Length_nil, utf8Size_digitChar (char.toNat / 16) (by omega),
        utf8Size_digitChar (char.toNat % 16) (by omega)]
      rfl
    · simp

theorem utf8Length_renderString (text : String) :
    utf8Length (renderString text) = stringSize text := by
  have inner : utf8Length (renderChars text.toList) = (text.toList.map charSize).sum := by
    induction text.toList with
    | nil => rfl
    | cons char rest ih =>
      rw [renderChars] at ih ⊢
      rw [List.flatMap_cons, utf8Length_append, utf8Length_renderChar, ih,
        List.map_cons, List.sum_cons]
  have quote : Char.utf8Size '"' = 1 := by decide
  simp only [renderString, utf8Length_cons, utf8Length_append, utf8Length_nil, inner, quote,
    stringSize]
  omega

theorem utf8Size_of_mem_toDigits {value : Nat} {char : Char}
    (member : char ∈ Nat.toDigits 10 value) : char.utf8Size = 1 := by
  have digit : char.isDigit = true := Nat.isDigit_of_mem_toDigits (by decide) (by decide) member
  rw [Char.utf8Size_eq_one_iff]
  simp only [Char.isDigit, Bool.and_eq_true, decide_eq_true_eq] at digit
  exact UInt32.le_trans digit.2 (by decide)

theorem utf8Length_renderInt (value : Int) : utf8Length (renderInt value) = numberSize value := by
  have digits : utf8Length (Nat.toDigits 10 value.natAbs) = (Nat.toDigits 10 value.natAbs).length :=
    utf8Length_ascii fun _ => utf8Size_of_mem_toDigits
  have minus : Char.utf8Size '-' = 1 := by decide
  simp only [renderInt, numberSize]
  split
  · rw [utf8Length_cons, digits, minus]
  · rw [digits, Nat.zero_add]

mutual

theorem utf8Length_render : ∀ value : Json, utf8Length (render value) = size value
  | .null => by decide
  | .bool true => by decide
  | .bool false => by decide
  | .number value => by rw [render, size, utf8Length_renderInt]
  | .string text => by rw [render, size, utf8Length_renderString]
  | .array items => by
      have brackets : Char.utf8Size '[' = 1 ∧ Char.utf8Size ']' = 1 := by decide
      simp only [render, size, utf8Length_cons, utf8Length_append, utf8Length_nil,
        utf8Length_renderItems items, brackets]
      omega
  | .object members => by
      have braces : Char.utf8Size '{' = 1 ∧ Char.utf8Size '}' = 1 := by decide
      simp only [render, size, utf8Length_cons, utf8Length_append, utf8Length_nil,
        utf8Length_renderMembers members, braces]
      omega

theorem utf8Length_renderItems : ∀ items : List Json,
    utf8Length (renderItems items) = itemsSize items
  | [] => rfl
  | [item] => by rw [renderItems, itemsSize, utf8Length_render item]
  | item :: next :: rest => by
      have comma : Char.utf8Size ',' = 1 := by decide
      simp only [renderItems, itemsSize, utf8Length_append, utf8Length_cons,
        utf8Length_render item, utf8Length_renderItems (next :: rest), comma]
      omega

theorem utf8Length_renderMembers : ∀ members : List (String × Json),
    utf8Length (renderMembers members) = membersSize members
  | [] => rfl
  | [(name, value)] => by
      have colon : Char.utf8Size ':' = 1 := by decide
      simp only [renderMembers, membersSize, utf8Length_append, utf8Length_cons,
        utf8Length_renderString, utf8Length_render value, colon]
      omega
  | (name, value) :: next :: rest => by
      have colon : Char.utf8Size ':' = 1 := by decide
      have comma : Char.utf8Size ',' = 1 := by decide
      simp only [renderMembers, membersSize, utf8Length_append, utf8Length_cons,
        utf8Length_renderString, utf8Length_render value, utf8Length_renderMembers (next :: rest),
        colon, comma]
      omega

end

theorem itemsSize_eq (items : List Json) :
    itemsSize items = (items.map size).sum + (items.length - 1) := by
  induction items with
  | nil => rfl
  | cons item rest ih =>
    cases rest with
    | nil => simp [itemsSize]
    | cons next rest =>
      rw [itemsSize, ih]
      simp only [List.map_cons, List.sum_cons, List.length_cons]
      omega

theorem size_encode (value : Json) : (encode value).size = size value := by
  rw [encode, String.toUTF8_eq_toByteArray, String.toByteArray_ofList, size_utf8Encode,
    utf8Length_render]

/-! ## What a text takes of the text it is read from -/

section Lengths

variable {fuel : Nat} {chars text rest : List Char} {char : Char} {name : String} {value : Json}

theorem length_le_utf8Length (chars : List Char) : chars.length ≤ utf8Length chars := by
  induction chars with
  | nil => exact Nat.le_refl 0
  | cons char rest ih =>
    have size := char.utf8Size_pos
    rw [List.length_cons, utf8Length_cons]
    omega

theorem utf8Length_le_of_suffix (suffix : rest <:+ chars) : utf8Length rest ≤ utf8Length chars := by
  obtain ⟨front, rfl⟩ := suffix
  rw [utf8Length_append]
  exact Nat.le_add_left _ _

theorem utf8Length_of_skipSpaces (skips : skipSpaces chars = char :: rest) :
    utf8Length rest < utf8Length (char :: rest) ∧
      utf8Length (char :: rest) ≤ utf8Length chars := by
  refine ⟨?_, utf8Length_le_of_suffix (skips ▸ List.dropWhile_suffix _ : _ <:+ chars)⟩
  rw [utf8Length_cons]
  exact Nat.lt_add_of_pos_left char.utf8Size_pos

theorem readHex_le {code : Nat} (reads : readHex chars = some (code, rest)) :
    utf8Length rest + 4 ≤ utf8Length chars := by
  unfold readHex at reads
  split at reads
  · simp only [Option.bind_eq_bind, Option.bind_eq_some_iff] at reads
    grind [utf8Length_cons, Char.utf8Size_pos]
  · cases reads

theorem readUnicode_le (reads : readUnicode chars = some (char, rest)) :
    utf8Length rest + 4 ≤ utf8Length chars := by
  unfold readUnicode at reads
  grind [→ readHex_le, utf8Length_cons]

/-- A character of a string literal takes at least the bytes that it has. -/
theorem readEscape_le (reads : readEscape chars = some (char, rest)) :
    char.utf8Size + utf8Length rest ≤ utf8Length chars := by
  cases chars with
  | nil => cases reads
  | cons first more =>
    have size := first.utf8Size_pos
    rw [utf8Length_cons]
    rw [readEscape] at reads
    by_cases unicode : first = 'u'
    · subst unicode
      have shrinks := readUnicode_le reads
      have small := char.utf8Size_le_four
      omega
    · rw [if_neg unicode] at reads
      split_ifs at reads <;> cases reads <;> exact Nat.add_le_add_right size _

theorem readChar_le {next : Option Char} (reads : readChar chars = some (next, rest)) :
    next.elim 1 Char.utf8Size + utf8Length rest ≤ utf8Length chars := by
  unfold readChar at reads
  grind [→ readEscape_le, utf8Length_cons, Char.utf8Size_pos, Option.map_eq_some_iff]

theorem readChars_lt (reads : readChars fuel chars = some (text, rest)) :
    utf8Length text + utf8Length rest < utf8Length chars := by
  induction fuel generalizing chars text with
  | zero => cases reads
  | succ fuel ih =>
    rw [readChars] at reads
    grind [→ readChar_le, utf8Length_cons, utf8Length_nil, Option.map_eq_some_iff]

theorem readName_le (reads : readName fuel chars = some (name, rest)) :
    utf8Length rest ≤ utf8Length chars := by
  unfold readName at reads
  grind [→ utf8Length_of_skipSpaces, → readChars_lt]

theorem readNat_le {number : Nat} (reads : readNat chars = some (number, rest)) :
    utf8Length rest ≤ utf8Length chars := by
  simp only [readNat, Option.ite_none_right_eq_some, Option.some.injEq, Prod.mk.injEq] at reads
  exact utf8Length_le_of_suffix (reads.2.2 ▸ List.dropWhile_suffix _)

/-- The bytes of a text, and none for another value. -/
def textLength : Json → Nat
  | .string text => utf8Length text.toList
  | _ => 0

theorem readWord_le (reads : readWord chars = some (value, rest)) :
    textLength value + utf8Length rest ≤ utf8Length chars ∧ ∀ members, value ≠ .object members := by
  unfold readWord at reads
  grind [textLength, utf8Length_cons]

mutual

theorem readValue_le : ∀ {fuel : Nat} {chars rest : List Char} {value : Json},
    readValue fuel chars = some (value, rest) →
      textLength value + utf8Length rest ≤ utf8Length chars
  | fuel + 1, chars, rest, value, reads => by
    have items := @readItems_le fuel
    have members := @readMembers_le fuel
    rw [readValue] at reads
    grind [→ utf8Length_of_skipSpaces, → readChars_lt, → readNat_le, → readWord_le, textLength,
      String.toList_ofList, Option.map_eq_some_iff]

theorem readItems_le : ∀ {fuel : Nat} {chars rest : List Char} {items : List Json},
    readItems fuel chars = some (items, rest) → utf8Length rest ≤ utf8Length chars
  | fuel + 1, chars, rest, items, reads => by
    have first := @readValue_le fuel
    have later := @readItems_le fuel
    rw [readItems] at reads
    grind [→ utf8Length_of_skipSpaces, Option.map_eq_some_iff]

theorem readMembers_le : ∀ {fuel : Nat} {chars rest : List Char} {members : List (String × Json)},
    readMembers fuel chars = some (members, rest) →
      (∀ name value, (name, value) ∈ members → textLength value ≤ utf8Length chars) ∧
        utf8Length rest ≤ utf8Length chars
  | fuel + 1, chars, rest, members, reads => by
    have first := @readValue_le fuel
    have later := @readMembers_le fuel
    rw [readMembers] at reads
    grind [→ utf8Length_of_skipSpaces, → readName_le, Option.map_eq_some_iff]

end

/-- A text in an object is shorter than the text of the object. -/
theorem textLength_lt_of_parse {members : List (String × Json)}
    (parsed : parse chars = some (.object members)) (member : (name, value) ∈ members) :
    textLength value < utf8Length chars := by
  unfold parse at parsed
  split at parsed
  · rename_i reads
    rw [readValue] at reads
    grind [→ utf8Length_of_skipSpaces, → readMembers_le, → readWord_le, Option.map_eq_some_iff]
  · cases parsed

end Lengths

/-! ## Typed values -/

/-- A type with a JSON form that its reader takes back. -/
class JsonForm (α : Type) where
  toJson : α → Json
  fromJson : Json → Option α
  fromJson_toJson : ∀ value, fromJson (toJson value) = some value

export JsonForm (toJson fromJson fromJson_toJson)

attribute [simp] fromJson_toJson

/-- No value has the form `null`, so that `null` can stand for an absent value. -/
class NeverNull (α : Type) [JsonForm α] : Prop where
  toJson_ne_null : ∀ value : α, toJson value ≠ Json.null

instance : JsonForm String where
  toJson := .string
  fromJson
    | .string text => some text
    | _ => none
  fromJson_toJson _ := rfl

instance : NeverNull String := ⟨fun _ => nofun⟩

instance : JsonForm Bool where
  toJson := .bool
  fromJson
    | .bool value => some value
    | _ => none
  fromJson_toJson _ := rfl

instance : JsonForm UInt8 where
  toJson byte := .number byte.toNat
  fromJson
    | .number value => if 0 ≤ value ∧ value < 256 then some (UInt8.ofNat value.toNat) else none
    | _ => none
  fromJson_toJson byte := by
    have small : (byte.toNat : Int) < 256 := Int.ofNat_lt.mpr byte.toNat_lt
    simp [small]

instance : JsonForm Int32 where
  toJson number := .number number.toInt
  fromJson
    | .number value =>
      if Int32.minValue.toInt ≤ value ∧ value ≤ Int32.maxValue.toInt then some (.ofInt value)
      else none
    | _ => none
  fromJson_toJson number := by
    have bounds := And.intro number.minValue_le_toInt number.toInt_le
    simp only [Int32.toInt_maxValue, Int32.toInt_minValue, Int32.ofInt_toInt] at *
    rw [if_pos (by omega)]

instance : NeverNull Int32 := ⟨fun _ => nofun⟩

instance : JsonForm Int64 where
  toJson number := .number number.toInt
  fromJson
    | .number value =>
      if Int64.minValue.toInt ≤ value ∧ value ≤ Int64.maxValue.toInt then some (.ofInt value)
      else none
    | _ => none
  fromJson_toJson number := by
    have bounds := And.intro number.minValue_le_toInt number.toInt_le
    simp only [Int64.toInt_maxValue, Int64.toInt_minValue, Int64.ofInt_toInt] at *
    rw [if_pos (by omega)]

instance : NeverNull Int64 := ⟨fun _ => nofun⟩

variable {α β : Type} [JsonForm α] [JsonForm β]

theorem mapM_fromJson (values : List α) : (values.map toJson).mapM fromJson = some values := by
  induction values with
  | nil => rfl
  | cons value rest ih => simp [ih]

instance : JsonForm (List α) where
  toJson values := .array (values.map toJson)
  fromJson
    | .array items => items.mapM fromJson
    | _ => none
  fromJson_toJson := mapM_fromJson

instance : NeverNull (List α) := ⟨fun _ => nofun⟩

instance [NeverNull α] : JsonForm (Option α) where
  toJson
    | none => .null
    | some value => toJson value
  fromJson
    | .null => some none
    | json => (fromJson json).map some
  fromJson_toJson
    | none => rfl
    | some value => by
        have present := NeverNull.toJson_ne_null value
        split
        · contradiction
        · simp

instance : JsonForm (α × β) where
  toJson pair := .array [toJson pair.1, toJson pair.2]
  fromJson
    | .array [first, second] => do return (← fromJson first, ← fromJson second)
    | _ => none
  fromJson_toJson pair := by simp

/-! ## Structures -/

/-- The values of the member `name`: none, one, or a refusal when it is repeated. -/
def lookupField (members : List (String × Json)) (name : String) : Option (Option Json) :=
  match members.filter (fun member => member.1 = name) with
  | [] => some none
  | [member] => some (some member.2)
  | _ => none

def structFields (names : List String) : Json → Option (List (Option Json))
  | .object members => names.mapM (lookupField members)
  | .array items => if items.length = names.length then some (items.map some) else none
  | _ => none

def requiredField (field : Option Json) : Option α :=
  field.bind fromJson

def optionalField [NeverNull α] : Option Json → Option (Option α)
  | none => some none
  | some json => fromJson json

@[simp] theorem requiredField_toJson (value : α) :
    requiredField (some (toJson value)) = some value :=
  fromJson_toJson value

@[simp] theorem optionalField_toJson [NeverNull α] (value : Option α) :
    optionalField (some (toJson value)) = some value :=
  fromJson_toJson value

theorem decode_encode_toJson (value : α) :
    (decode (encode (toJson value))).bind fromJson = some value := by
  simp

end Lib.Json
