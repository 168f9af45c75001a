import KrabkaGateway.Codec
import KrabkaGateway.Lib.Leb128

/-!
# Frames of the schema registry

The decode side of `schema/wire.rs`, and the message indexes as the registry's
own clients write them: the number of indexes and each index as a zig-zag
varint, and one zero byte for the first message. The gateway reads plain
varints. A reader returns the bytes behind what it has read, where the source
returns their position.
-/

namespace KrabkaGateway.Schema

open Lib

/-! ## Reading -/

/-- Two hexadecimal digits, as `{:02x}` prints them. -/
def hexByte (byte : UInt8) : String :=
  let digits := String.ofList (Nat.toDigits 16 byte.toNat)
  if digits.length < 2 then "0" ++ digits else digits

/-- `i32::from_be_bytes`. -/
def fromBigEndian (first second third fourth : UInt8) : Int32 :=
  (UInt32.ofNat
    (((first.toNat * 256 + second.toNat) * 256 + third.toNat) * 256 + fourth.toNat)).toInt32

def frameSchemaId : Bytes → Except CodecError Int32
  | magic :: first :: second :: third :: fourth :: _ =>
    if magic = 0 then .ok (fromBigEndian first second third fourth)
    else .error (.framing ("bad magic byte: 0x" ++ hexByte magic ++ " (expected 0x00)"))
  | bytes =>
    .error (.framing ("frame too short: " ++ toString bytes.length ++
      " bytes (need at least 5)"))

def decodeFrameBytes (bytes : Bytes) : Except CodecError (Int32 × Bytes) :=
  (frameSchemaId bytes).map fun id => (id, bytes.drop 5)

def readVarintFrom : Bytes → Nat → Nat → Except CodecError (Nat × Bytes)
  | [], _, _ => .error (.framing "truncated varint in message-index prefix")
  | byte :: rest, result, shift =>
    -- Bits that are shifted out of the 64 are lost without an error.
    let result := result ||| ((byte.toNat &&& 0x7f) <<< shift) % 2 ^ 64
    if byte.toNat &&& 0x80 = 0 then .ok (result, rest)
    else if 64 ≤ shift + 7 then
      .error (.framing "varint overflow in message-index prefix")
    else readVarintFrom rest result (shift + 7)

def readVarint (bytes : Bytes) : Except CodecError (Nat × Bytes) :=
  readVarintFrom bytes 0 0

def skipVarints : Nat → Bytes → Except CodecError Bytes
  | 0, bytes => .ok bytes
  | count + 1, bytes =>
    match readVarint bytes with
    | .ok (_, rest) => skipVarints count rest
    | .error error => .error error

def stripProtoIndexBytes (payload : Bytes) : Except CodecError Bytes :=
  match readVarint payload with
  | .ok (count, rest) => if count = 0 then .ok rest else skipVarints count rest
  | .error error => .error error

theorem fromBigEndian_shifts (id : Int32) :
    fromBigEndian (id.toUInt32 >>> 24).toUInt8 (id.toUInt32 >>> 16).toUInt8
      (id.toUInt32 >>> 8).toUInt8 id.toUInt32.toUInt8 = id := by
  have bound := id.toUInt32.toNat_lt
  have digit (shift : UInt32) (small : shift.toNat < 32) :
      (id.toUInt32 >>> shift).toUInt8.toNat = id.toUInt32.toNat / 2 ^ shift.toNat % 256 := by
    simp [Nat.shiftRight_eq_div_pow, Nat.mod_eq_of_lt small]
  have digits : ((id.toUInt32.toNat / 2 ^ 24 % 256 * 256 + id.toUInt32.toNat / 2 ^ 16 % 256) *
      256 + id.toUInt32.toNat / 2 ^ 8 % 256) * 256 + id.toUInt32.toNat % 256 =
        id.toUInt32.toNat := by
    omega
  rw [fromBigEndian, digit 24 (by decide), digit 16 (by decide), digit 8 (by decide),
    UInt32.toNat_toUInt8]
  exact (congrArg (fun bits => (UInt32.ofNat bits).toInt32) digits).trans (by simp)

/-- The header is read back. -/
theorem decodeFrameBytes_bigEndian (id : Int32) (rest : Bytes) :
    decodeFrameBytes (0 :: (bigEndian id ++ rest)) = .ok (id, rest) := by
  simp only [decodeFrameBytes, bigEndian, List.cons_append, List.nil_append, frameSchemaId,
    if_true, fromBigEndian_shifts]
  rfl

variable {rest : Bytes}

theorem length_decodeFrameBytes {value : Bytes} {id : Int32}
    (decoded : decodeFrameBytes value = .ok (id, rest)) : rest.length + 5 = value.length := by
  unfold decodeFrameBytes frameSchemaId at decoded
  split at decoded
  · split at decoded
    · cases decoded
      rfl
    · cases decoded
  · cases decoded

variable {value : Nat}

theorem length_readVarintFrom {bytes : Bytes} {result shift : Nat}
    (read : readVarintFrom bytes result shift = .ok (value, rest)) :
    rest.length < bytes.length := by
  induction bytes generalizing result shift with
  | nil => simp [readVarintFrom] at read
  | cons byte later ih =>
    simp only [readVarintFrom] at read
    split at read
    · cases read
      exact Nat.lt_succ_self _
    · split at read
      · cases read
      · exact Nat.lt_succ_of_lt (ih read)

variable {count : Nat}

theorem length_skipVarints {bytes : Bytes} (skipped : skipVarints count bytes = .ok rest) :
    rest.length ≤ bytes.length := by
  induction count generalizing bytes with
  | zero =>
    cases skipped
    exact le_refl _
  | succ count ih =>
    simp only [skipVarints] at skipped
    split at skipped
    · rename_i read
      exact (ih skipped).trans (length_readVarintFrom read).le
    · cases skipped

variable {payload : Bytes}

theorem length_stripProtoIndexBytes (stripped : stripProtoIndexBytes payload = .ok rest) :
    rest.length < payload.length := by
  unfold stripProtoIndexBytes at stripped
  split at stripped
  · rename_i read
    split at stripped
    · cases stripped
      exact length_readVarintFrom read
    · exact (length_skipVarints stripped).trans_lt (length_readVarintFrom read)
  · cases stripped

/-! ## Message indexes as they are written -/

/-- The zig-zag code of a number that is not negative. -/
def zigzag (value : Nat) : Nat :=
  2 * value

/-- The indexes of a message as the clients of the registry write them. -/
def messageIndexBytes (path : List Nat) : Bytes :=
  if path = [0] then [0]
  else Leb128.encode (zigzag path.length) ++ (path.map zigzag).flatMap Leb128.encode

/-- Where a message stands in its file: the index of a top-level message, then of the messages
nested in it. Indexes are non-negative 32-bit integers, and so is their number. -/
structure MessageIndexes where
  path : List Nat
  nonempty : path ≠ []
  length_lt : path.length < 2 ^ 31
  index_lt : ∀ index ∈ path, index < 2 ^ 31

def MessageIndexes.bytes (indexes : MessageIndexes) : Bytes :=
  messageIndexBytes indexes.path

def varintFault : Leb128.Fault → CodecError
  | .truncated => .framing "truncated varint in message-index prefix"
  | .overflow => .framing "varint overflow in message-index prefix"

theorem readVarintFrom_eq_scan (bytes : Bytes) (result shift : Nat) :
    readVarintFrom bytes result shift =
      (Leb128.scan bytes result shift).mapError varintFault := by
  induction bytes generalizing result shift with
  | nil => rfl
  | cons byte rest ih =>
    simp only [readVarintFrom, Leb128.scan]
    split
    · rfl
    · split
      · rfl
      · exact ih _ _

theorem readVarint_eq_ok_iff {bytes : Bytes} :
    readVarint bytes = .ok (value, rest) ↔ Leb128.scan bytes 0 0 = .ok (value, rest) := by
  rw [readVarint, readVarintFrom_eq_scan]
  cases Leb128.scan bytes 0 0 <;> simp [Except.mapError]

theorem readVarint_encode (rest : Bytes) (bound : value < 2 ^ 64) :
    readVarint (Leb128.encode value ++ rest) = .ok (value, rest) := by
  rw [readVarint_eq_ok_iff]
  exact Leb128.scan_encode bound rest

/-- Where the reader takes a number that was written, it ends right behind it; of a number that is
too large it keeps the low 64 bits. -/
theorem readVarint_encode_eq_ok {found : Nat} {behind : Bytes}
    (read : readVarint (Leb128.encode value ++ rest) = .ok (found, behind)) :
    found = value % 2 ^ 64 ∧ behind = rest := by
  rw [readVarint_eq_ok_iff, Leb128.scan_start_eq_ok_iff] at read
  obtain ⟨digits, number, split, digitsOf, _, rfl⟩ := read
  obtain ⟨_, rfl, rfl⟩ := (Leb128.number_encode value).unique digitsOf split
  exact ⟨rfl, rfl⟩

variable {values : List Nat}

theorem count_of_skipVarints
    (skipped : skipVarints count (values.flatMap Leb128.encode ++ payload) = .ok payload) :
    count = values.length := by
  induction values generalizing count with
  | nil =>
    cases count with
    | zero => rfl
    | succ count =>
      rw [List.flatMap_nil, List.nil_append, skipVarints] at skipped
      split at skipped
      · rename_i rest read
        have shorter := length_readVarintFrom read
        have longer := length_skipVarints skipped
        omega
      · cases skipped
  | cons value later ih =>
    rw [List.flatMap_cons, List.append_assoc] at skipped
    cases count with
    | zero =>
      have same : (Leb128.encode value ++ (later.flatMap Leb128.encode ++ payload)).length =
          payload.length := by
        rw [skipVarints] at skipped
        exact congrArg List.length (Except.ok.inj skipped)
      have some := List.length_pos_iff.mpr (Leb128.encode_ne_nil value)
      simp only [List.length_append] at same
      omega
    | succ count =>
      rw [skipVarints] at skipped
      split at skipped
      · rename_i read
        rw [(readVarint_encode_eq_ok read).2] at skipped
        rw [ih skipped, List.length_cons]
      · cases skipped

theorem skipVarints_encode (count : Nat) (rest : Bytes)
    (bound : ∀ value ∈ values, value < 2 ^ 64) :
    skipVarints (values.length + count) (values.flatMap Leb128.encode ++ rest) =
      skipVarints count rest := by
  induction values with
  | nil => simp
  | cons value later ih =>
    have shift : (value :: later).length + count = later.length + count + 1 := by
      simp only [List.length_cons]
      omega
    rw [shift, List.flatMap_cons, List.append_assoc, skipVarints,
      readVarint_encode _ (bound value List.mem_cons_self)]
    exact ih fun value member => bound value (List.mem_cons_of_mem _ member)

namespace MessageIndexes

theorem strip_first (payload : Bytes) : stripProtoIndexBytes (0 :: payload) = .ok payload :=
  rfl

/-- Behind any indexes but those of the first message the reader, which takes the zig-zag code of
their number for the number, skips as many numbers of the payload. -/
theorem strip_other {indexes : MessageIndexes} (other : indexes.path ≠ [0]) (payload : Bytes) :
    stripProtoIndexBytes (indexes.bytes ++ payload) =
      skipVarints indexes.path.length payload := by
  have short := indexes.length_lt
  have some : indexes.path.length ≠ 0 := by simpa using indexes.nonempty
  have bound : ∀ value ∈ indexes.path.map zigzag, value < 2 ^ 64 := by
    intro value member
    obtain ⟨index, listed, rfl⟩ := List.mem_map.mp member
    have := indexes.index_lt index listed
    rw [zigzag]
    omega
  have number : zigzag indexes.path.length =
      (indexes.path.map zigzag).length + indexes.path.length := by
    rw [zigzag, List.length_map]
    omega
  rw [stripProtoIndexBytes, bytes, messageIndexBytes, if_neg other, List.append_assoc,
    readVarint_encode _ (by rw [zigzag]; omega)]
  simp only [show zigzag indexes.path.length ≠ 0 by rw [zigzag]; omega, if_false]
  rw [number, skipVarints_encode _ _ bound]

end MessageIndexes

end KrabkaGateway.Schema
