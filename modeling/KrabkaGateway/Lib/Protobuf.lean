import KrabkaGateway.Lib.Leb128

/-!
# Protocol buffers on the wire

A message is a list of fields. A field is its number and wire type, in one LEB128 key,
and a payload whose form the wire type tells. A reader takes the keys from the front of
its input and hands each payload to a handler, which returns the bytes behind it.
-/

namespace Lib.Protobuf

abbrev FieldNumber := { number : Nat // 1 ≤ number ∧ number < 2 ^ 29 }

inductive Field where
  | varint (number : FieldNumber) (value : UInt64)
  | fixed64 (number : FieldNumber) (value : UInt64)
  | delimited (number : FieldNumber) (bytes : List UInt8)
  | group (number : FieldNumber) (fields : List Field)
  | fixed32 (number : FieldNumber) (value : UInt32)

def Field.number : Field → FieldNumber
  | .varint number _ | .fixed64 number _ | .delimited number _ | .group number _
  | .fixed32 number _ => number

def Field.wireType : Field → Nat
  | .varint .. => 0
  | .fixed64 .. => 1
  | .delimited .. => 2
  | .group .. => 3
  | .fixed32 .. => 5

/-- The wire type behind the fields of a group. -/
def endGroup : Nat :=
  4

def key (number : FieldNumber) (wireType : Nat) : List UInt8 :=
  Leb128.encode (number.val * 8 + wireType)

def littleEndian : Nat → Nat → List UInt8
  | 0, _ => []
  | count + 1, value => value.toUInt8 :: littleEndian count (value / 256)

mutual

def Field.payload : Field → List UInt8
  | .varint _ value => Leb128.encode value.toNat
  | .fixed64 _ value => littleEndian 8 value.toNat
  | .delimited _ bytes => Leb128.encode bytes.length ++ bytes
  | .group number fields => encode fields ++ key number endGroup
  | .fixed32 _ value => littleEndian 4 value.toNat

def encode : List Field → List UInt8
  | [] => []
  | field :: fields => key field.number field.wireType ++ (field.payload ++ encode fields)

end

theorem Field.wireType_lt (field : Field) : field.wireType < 8 := by
  cases field <;> exact of_decide_eq_true rfl

theorem length_payload_le {field : Field} {fields : List Field} (member : field ∈ fields) :
    field.payload.length ≤ (encode fields).length := by
  induction fields with
  | nil => cases member
  | cons first fields ih =>
    rw [encode, List.length_append, List.length_append]
    rcases List.mem_cons.mp member with rfl | later
    · omega
    · have := ih later
      omega

/-! ## Readers -/

/-- The loop body of a reader. -/
structure Reader (State Error : Type) where
  readKey : List UInt8 → Except Error (Nat × List UInt8)
  readKey_encode {number : Nat} (rest : List UInt8) :
    number < 2 ^ 64 → readKey (Leb128.encode number ++ rest) = .ok (number, rest)
  readKey_shorter {bytes rest : List UInt8} {number : Nat} :
    readKey bytes = .ok (number, rest) → rest.length < bytes.length
  /-- Take the payload of a field of this number and wire type. -/
  handle : State → Nat → Nat → List UInt8 → Except Error (State × List UInt8)
  handle_shorter {state next : State} {number wireType : Nat} {bytes rest : List UInt8} :
    handle state number wireType bytes = .ok (next, rest) → rest.length ≤ bytes.length

namespace Reader

variable {State Error : Type} (reader : Reader State Error)

def run (state : State) (bytes : List UInt8) : Except Error State :=
  if bytes.isEmpty then .ok state
  else
    match read : reader.readKey bytes with
    | .error error => .error error
    | .ok (number, payload) =>
      match taken : reader.handle state (number / 8 % 2 ^ 32) (number % 8) payload with
      | .error error => .error error
      | .ok (next, rest) =>
        have := reader.readKey_shorter read
        have := reader.handle_shorter taken
        run next rest
termination_by bytes.length
decreasing_by omega

variable {reader}

theorem run_nil (state : State) : reader.run state [] = .ok state := by
  rw [run]
  rfl

variable {state : State}

theorem run_key {field : Field} (rest : List UInt8) :
    reader.run state (key field.number field.wireType ++ rest) =
      match reader.handle state field.number.val field.wireType rest with
      | .error error => .error error
      | .ok (next, rest) => reader.run next rest := by
  have small := field.number.property.2
  have low := field.wireType_lt
  have read : reader.readKey (key field.number field.wireType ++ rest) =
      .ok (field.number.val * 8 + field.wireType, rest) :=
    reader.readKey_encode rest (by omega)
  have number : (field.number.val * 8 + field.wireType) / 8 % 2 ^ 32 = field.number.val := by omega
  have wireType : (field.number.val * 8 + field.wireType) % 8 = field.wireType := by omega
  have nonempty : (key field.number field.wireType ++ rest).isEmpty = false := by
    have := reader.readKey_shorter read
    exact List.isEmpty_eq_false_iff.mpr (List.ne_nil_of_length_pos (by omega))
  rw [run, nonempty, if_neg Bool.false_ne_true]
  split
  · rename_i failed
    rw [read] at failed
    cases failed
  · rename_i found
    rw [read] at found
    cases found
    split
    · rename_i refused
      rw [number, wireType] at refused
      rw [refused]
    · rename_i taken
      rw [number, wireType] at taken
      rw [taken]

theorem run_encode {Item : Type} {wire : Item → Field} {next : State → Item → Except Error State}
    {items : List Item} (handles : ∀ item ∈ items, ∀ state rest,
      reader.handle state (wire item).number.val (wire item).wireType
        ((wire item).payload ++ rest) =
        (next state item).map (·, rest)) :
    reader.run state (encode (items.map wire)) = items.foldlM next state := by
  induction items generalizing state with
  | nil => exact run_nil state
  | cons item items ih =>
    rw [List.map_cons, encode, run_key, handles item List.mem_cons_self, List.foldlM_cons]
    cases next state item with
    | error error => rfl
    | ok after =>
      exact ih fun later member => handles later (List.mem_cons_of_mem _ member)

end Reader

end Lib.Protobuf
