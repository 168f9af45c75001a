import KrabkaGateway.Cpp.Errors
import KrabkaGateway.Lib.Fallible
import KrabkaGateway.Lib.Protobuf

/-!
# Decoding of inbound messages in the C++ SDK

`decode_inbound` of `transport_nghttp2.cc` with its readers, against the messages of
`gateway.proto`. A reader returns the bytes behind what it has read, where the source
moves a cursor. The encoding of a message is any list of its fields: in any order, with
fields written twice, and with fields that `gateway.proto` does not have.
-/

namespace KrabkaGateway.Cpp

open Lib Lib.Protobuf

/-! ## Readers -/

def transportError (message : String) : Error :=
  errorWithMessage .transport (literal message)

def readVarintFrom : Bytes → Nat → Nat → Except Error (Nat × Bytes)
  | [], _, shift =>
    if shift < 64 then .error (transportError "truncated protobuf varint")
    else .error (transportError "protobuf varint is too long")
  | byte :: rest, value, shift =>
    if shift < 64 then
      -- Bits that are shifted out of the 64 are lost.
      let value := value ||| ((byte.toNat &&& 0x7f) <<< shift) % 2 ^ 64
      if byte.toNat &&& 0x80 = 0 then .ok (value, rest)
      else readVarintFrom rest value (shift + 7)
    else .error (transportError "protobuf varint is too long")

def readVarint (bytes : Bytes) : Except Error (Nat × Bytes) :=
  readVarintFrom bytes 0 0

def readLengthDelimited (bytes : Bytes) : Except Error (Bytes × Bytes) :=
  match readVarint bytes with
  | .error error => .error error
  | .ok (size, rest) =>
    if rest.length < size then .error (transportError "truncated protobuf field")
    else .ok (rest.take size, rest.drop size)

def skipField (wireType : Nat) (bytes : Bytes) : Except Error Bytes :=
  if wireType = 0 then (readVarint bytes).map Prod.snd
  else if wireType = 2 then (readLengthDelimited bytes).map Prod.snd
  else .error (transportError "unsupported protobuf wire type")

def varintFault : Leb128.Fault → Error
  | .truncated => transportError "truncated protobuf varint"
  | .overflow => transportError "protobuf varint is too long"

variable {shift : Nat}

theorem readVarintFrom_of_full (full : 64 ≤ shift) (bytes : Bytes) (value : Nat) :
    readVarintFrom bytes value shift = .error (varintFault .overflow) := by
  cases bytes <;> rw [readVarintFrom, if_neg (Nat.not_lt.mpr full)] <;> rfl

theorem readVarintFrom_eq_scan (inside : shift < 64) (bytes : Bytes) (value : Nat) :
    readVarintFrom bytes value shift = (Leb128.scan bytes value shift).mapError varintFault := by
  induction bytes generalizing value shift with
  | nil =>
    rw [readVarintFrom, if_pos inside]
    rfl
  | cons byte rest ih =>
    rw [readVarintFrom, Leb128.scan, if_pos inside]
    dsimp only
    split
    · rfl
    · split
      · rename_i full
        exact readVarintFrom_of_full full rest _
      · rename_i space
        exact ih (Nat.not_le.mp space) _

variable {bytes rest : Bytes} {number : Nat}

theorem readVarint_eq_ok_iff :
    readVarint bytes = .ok (number, rest) ↔ Leb128.scan bytes 0 0 = .ok (number, rest) := by
  rw [readVarint, readVarintFrom_eq_scan (by decide)]
  cases Leb128.scan bytes 0 0 <;> simp [Except.mapError]

theorem readVarint_encode (rest : Bytes) (bound : number < 2 ^ 64) :
    readVarint (Leb128.encode number ++ rest) = .ok (number, rest) :=
  readVarint_eq_ok_iff.mpr (Leb128.scan_encode bound rest)

theorem readVarint_shorter (read : readVarint bytes = .ok (number, rest)) :
    rest.length < bytes.length := by
  obtain ⟨digits, _, rfl, isNumber, _⟩ :=
    Leb128.scan_start_eq_ok_iff.mp (readVarint_eq_ok_iff.mp read)
  have := List.length_pos_iff.mpr isNumber.ne_nil
  rw [List.length_append]
  omega

theorem readLengthDelimited_encode (rest : Bytes) (bound : bytes.length < 2 ^ 64) :
    readLengthDelimited (Leb128.encode bytes.length ++ (bytes ++ rest)) = .ok (bytes, rest) := by
  rw [readLengthDelimited, readVarint_encode _ bound]
  dsimp only
  rw [if_neg (by rw [List.length_append]; omega), List.take_left, List.drop_left]

theorem readLengthDelimited_shorter {body : Bytes}
    (read : readLengthDelimited bytes = .ok (body, rest)) : rest.length ≤ bytes.length := by
  unfold readLengthDelimited at read
  split at read
  · cases read
  · rename_i number
    have := readVarint_shorter number
    split at read
    · cases read
    · cases read
      rw [List.length_drop]
      omega

variable {wireType : Nat}

theorem skipField_shorter (skipped : skipField wireType bytes = .ok rest) :
    rest.length ≤ bytes.length := by
  unfold skipField at skipped
  split at skipped
  · obtain ⟨found, read, rfl⟩ := ok_of_map skipped
    exact (readVarint_shorter read).le
  · split at skipped
    · obtain ⟨found, read, rfl⟩ := ok_of_map skipped
      exact readLengthDelimited_shorter read
    · cases skipped

/-- The fields that can be skipped. -/
def skippable : Field → Bool
  | .varint .. | .delimited .. => true
  | .fixed64 .. | .group .. | .fixed32 .. => false

theorem skipField_payload {field : Field} (rest : Bytes) (bound : field.payload.length < 2 ^ 64) :
    skipField field.wireType (field.payload ++ rest) =
      if skippable field then .ok rest
      else .error (transportError "unsupported protobuf wire type") := by
  cases field with
  | varint number value =>
    simp only [skipField, Field.wireType, Field.payload, if_true, skippable]
    rw [readVarint_encode rest value.toNat_lt]
    rfl
  | delimited number bytes =>
    simp only [Field.payload, List.length_append] at bound
    simp only [skipField, Field.wireType, Field.payload, skippable, List.append_assoc]
    rw [readLengthDelimited_encode rest (by omega)]
    rfl
  | fixed64 | group | fixed32 => rfl

/-! ## Decoders -/

structure Header where
  name : Bytes
  value : Option Bytes
  deriving DecidableEq, Repr

structure Inbound where
  topic : Bytes
  partition : Int32
  offset : Int64
  value : Bytes
  headers : List Header
  deriving DecidableEq, Repr

/-- The loop body of `decode_headers`. -/
def headerField (header : Header) (field wireType : Nat) (bytes : Bytes) :
    Except Error (Header × Bytes) :=
  if field = 1 ∧ wireType = 2 then
    (readLengthDelimited bytes).map fun read => ({ header with name := read.1 }, read.2)
  else if field = 2 ∧ wireType = 2 then
    (readLengthDelimited bytes).map fun read => ({ header with value := some read.1 }, read.2)
  else (skipField wireType bytes).map fun rest => (header, rest)

def headerReader : Reader Header Error where
  readKey := readVarint
  readKey_encode := readVarint_encode
  readKey_shorter := readVarint_shorter
  handle := headerField
  handle_shorter taken := by
    unfold headerField at taken
    split_ifs at taken <;> obtain ⟨found, read, same⟩ := ok_of_map taken <;> cases same
    · exact readLengthDelimited_shorter read
    · exact readLengthDelimited_shorter read
    · exact skipField_shorter read

def decodeHeaders (bytes : Bytes) : Except Error (List Header) :=
  (headerReader.run { name := [], value := none } bytes).map fun header =>
    if header.name.isEmpty then [] else [header]

/-- The loop body of `decode_inbound`. -/
def inboundField (inbound : Inbound) (field wireType : Nat) (bytes : Bytes) :
    Except Error (Inbound × Bytes) :=
  if field = 1 ∧ wireType = 2 then
    (readLengthDelimited bytes).map fun read => ({ inbound with topic := read.1 }, read.2)
  else if field = 2 ∧ wireType = 0 then
    (readVarint bytes).map fun read => ({ inbound with partition := Int32.ofNat read.1 }, read.2)
  else if field = 3 ∧ wireType = 0 then
    (readVarint bytes).map fun read => ({ inbound with offset := Int64.ofNat read.1 }, read.2)
  else if field = 5 ∧ wireType = 2 then
    (readLengthDelimited bytes).map fun read => ({ inbound with value := read.1 }, read.2)
  else if field = 6 ∧ wireType = 2 then
    (readLengthDelimited bytes).bind fun read =>
      (decodeHeaders read.1).map fun headers =>
        ({ inbound with headers := inbound.headers ++ headers }, read.2)
  else (skipField wireType bytes).map fun rest => (inbound, rest)

theorem inboundField_shorter {inbound next : Inbound} {field : Nat}
    (taken : inboundField inbound field wireType bytes = .ok (next, rest)) :
    rest.length ≤ bytes.length := by
  unfold inboundField at taken
  split_ifs at taken
  · obtain ⟨found, read, same⟩ := ok_of_map taken
    cases same
    exact readLengthDelimited_shorter read
  · obtain ⟨found, read, same⟩ := ok_of_map taken
    cases same
    exact (readVarint_shorter read).le
  · obtain ⟨found, read, same⟩ := ok_of_map taken
    cases same
    exact (readVarint_shorter read).le
  · obtain ⟨found, read, same⟩ := ok_of_map taken
    cases same
    exact readLengthDelimited_shorter read
  · obtain ⟨found, read, decoded⟩ := ok_of_bind taken
    obtain ⟨_, _, same⟩ := ok_of_map decoded
    cases same
    exact readLengthDelimited_shorter read
  · obtain ⟨found, skipped, same⟩ := ok_of_map taken
    cases same
    exact skipField_shorter skipped

def inboundReader : Reader Inbound Error where
  readKey := readVarint
  readKey_encode := readVarint_encode
  readKey_shorter := readVarint_shorter
  handle := inboundField
  handle_shorter := inboundField_shorter

def decodeInbound (bytes : Bytes) : Except Error Inbound :=
  inboundReader.run { topic := [], partition := 0, offset := 0, value := [], headers := [] } bytes

/-! ## The messages of `gateway.proto` -/

namespace Proto

structure Header where
  key : String
  value : Option Bytes
  deriving DecidableEq, Repr

/-- `structured` and `schema` are the encodings of messages of their own. -/
structure Inbound where
  topic : String
  partition : Int32
  offset : Int64
  key : Option Bytes
  value : Bytes
  headers : List Header
  timestampMs : Int64
  structured : Option Bytes
  schema : Option Bytes
  deriving DecidableEq, Repr

structure Unknown (known : List Nat) where
  field : Field
  unknown : field.number.val ∉ known

inductive HeaderField where
  | key (key : String)
  | value (value : Bytes)
  | unknown (other : Unknown [1, 2])

inductive InboundField where
  | topic (topic : String)
  | partition (partition : Int32)
  | offset (offset : Int64)
  | key (key : Bytes)
  | value (value : Bytes)
  | header (fields : List HeaderField)
  | timestampMs (timestamp : Int64)
  | structured (message : Bytes)
  | schema (message : Bytes)
  | unknown (other : Unknown [1, 2, 3, 4, 5, 6, 7, 8, 9])

def HeaderField.wire : HeaderField → Field
  | .key text => .delimited ⟨1, by decide⟩ (literal text)
  | .value bytes => .delimited ⟨2, by decide⟩ bytes
  | .unknown other => other.field

/-- A negative number of 32 bits is extended to 64. -/
def InboundField.wire : InboundField → Field
  | .topic text => .delimited ⟨1, by decide⟩ (literal text)
  | .partition number => .varint ⟨2, by decide⟩ number.toInt64.toUInt64
  | .offset number => .varint ⟨3, by decide⟩ number.toUInt64
  | .key bytes => .delimited ⟨4, by decide⟩ bytes
  | .value bytes => .delimited ⟨5, by decide⟩ bytes
  | .header fields => .delimited ⟨6, by decide⟩ (encode (fields.map HeaderField.wire))
  | .timestampMs number => .varint ⟨7, by decide⟩ number.toUInt64
  | .structured message => .delimited ⟨8, by decide⟩ message
  | .schema message => .delimited ⟨9, by decide⟩ message
  | .unknown other => other.field

def encodeInbound (fields : List InboundField) : Bytes :=
  encode (fields.map InboundField.wire)

def Header.set (header : Header) : HeaderField → Header
  | .key key => { header with key }
  | .value value => { header with value := some value }
  | .unknown _ => header

def headerOf (fields : List HeaderField) : Header :=
  fields.foldl Header.set { key := "", value := none }

def Inbound.set (message : Inbound) : InboundField → Inbound
  | .topic topic => { message with topic }
  | .partition partition => { message with partition }
  | .offset offset => { message with offset }
  | .key key => { message with key := some key }
  | .value value => { message with value }
  | .header fields => { message with headers := message.headers ++ [headerOf fields] }
  | .timestampMs timestampMs => { message with timestampMs }
  -- Two messages in one field are merged.
  | .structured more => { message with structured := some (message.structured.getD [] ++ more) }
  | .schema more => { message with schema := some (message.schema.getD [] ++ more) }
  | .unknown _ => message

def Inbound.empty : Inbound where
  topic := ""
  partition := 0
  offset := 0
  key := none
  value := []
  headers := []
  timestampMs := 0
  structured := none
  schema := none

/-- The message that its fields mean. -/
def inboundOf (fields : List InboundField) : Inbound :=
  fields.foldl Inbound.set .empty

/-- The fields that a serializer writes: those that are not empty, in the order of their numbers. -/
def Header.fields (header : Header) : List HeaderField :=
  (if header.key = "" then [] else [.key header.key]) ++ (header.value.map .value).toList

def Inbound.fields (message : Inbound) : List InboundField :=
  (if message.topic = "" then [] else [.topic message.topic]) ++
  (if message.partition = 0 then [] else [.partition message.partition]) ++
  (if message.offset = 0 then [] else [.offset message.offset]) ++
  (message.key.map .key).toList ++
  (if message.value = [] then [] else [.value message.value]) ++
  message.headers.map (fun header => .header header.fields) ++
  (if message.timestampMs = 0 then [] else [.timestampMs message.timestampMs]) ++
  (message.structured.map .structured).toList ++
  (message.schema.map .schema).toList

theorem headerOf_fields (header : Header) : headerOf header.fields = header := by
  obtain ⟨key, value⟩ := header
  simp only [headerOf, Header.fields]
  split <;> cases value <;> simp_all [Header.set]

theorem foldl_set_headers (message : Inbound) (headers : List Header) :
    (headers.map fun header => InboundField.header header.fields).foldl Inbound.set message =
      { message with headers := message.headers ++ headers } := by
  induction headers generalizing message with
  | nil => simp
  | cons header headers ih =>
    rw [List.map_cons, List.foldl_cons, ih]
    simp [Inbound.set, headerOf_fields]

theorem foldl_set_unknown (message : Inbound)
    (others : List (Unknown [1, 2, 3, 4, 5, 6, 7, 8, 9])) :
    (others.map InboundField.unknown).foldl Inbound.set message = message := by
  induction others with
  | nil => rfl
  | cons other others ih => exact ih

theorem foldl_unless_default {Value : Type} [DecidableEq Value] (field : Value → InboundField)
    {default value : Value} {message : Inbound} (unset : message.set (field default) = message) :
    (if value = default then [] else [field value]).foldl Inbound.set message =
      message.set (field value) := by
  split
  · rename_i same
    rw [same, unset]
    rfl
  · rfl

/-- What a serializer writes means the message, also with other fields behind it. -/
theorem inboundOf_fields (message : Inbound) (others : List (Unknown [1, 2, 3, 4, 5, 6, 7, 8, 9])) :
    inboundOf (message.fields ++ others.map .unknown) = message := by
  obtain ⟨topic, partition, offset, key, value, headers, timestampMs, structured, schema⟩ := message
  simp only [inboundOf, Inbound.fields, List.foldl_append, foldl_set_unknown]
  rw [foldl_unless_default .topic rfl, foldl_unless_default .partition,
    foldl_unless_default .offset]
  · cases key <;> cases structured <;> cases schema <;>
      rw [foldl_unless_default .value, foldl_set_headers, foldl_unless_default .timestampMs] <;> rfl
  · rfl
  · rfl

end Proto

/-! ## What is decoded -/

theorem literal_eq_nil_iff (text : String) : literal text = [] ↔ text = "" := by
  rw [literal, Array.toList_eq_nil_iff]
  constructor
  · intro empty
    apply String.utf8ByteSize_eq_zero_iff.mp
    rw [← String.size_toByteArray]
    exact congrArg Array.size empty
  · rintro rfl
    rfl

theorem ofNat_toInt64_toUInt64 (number : Int32) :
    Int32.ofNat number.toInt64.toUInt64.toNat = number := by
  apply Int32.toBitVec_inj.mp
  change BitVec.ofNat 32 (number.toBitVec.signExtend 64).toNat = number.toBitVec
  rw [BitVec.ofNat_toNat]
  ext index bound
  rw [BitVec.getElem_setWidth, BitVec.getLsbD_signExtend, if_pos bound,
    BitVec.getLsbD_eq_getElem bound, decide_eq_true (by omega), Bool.true_and]

theorem ofNat_toUInt64 (number : Int64) : Int64.ofNat number.toUInt64.toNat = number := by
  apply Int64.toBitVec_inj.mp
  change BitVec.ofNat 64 number.toBitVec.toNat = number.toBitVec
  rw [BitVec.ofNat_toNat, BitVec.setWidth_eq]

def unsupportedWireType : Error :=
  transportError "unsupported protobuf wire type"

namespace Proto

def HeaderField.skippable : HeaderField → Bool
  | .unknown other => Cpp.skippable other.field
  | .key _ | .value _ => true

def InboundField.skippable : InboundField → Bool
  | .unknown other => Cpp.skippable other.field
  | .header fields => fields.all HeaderField.skippable
  | _ => true

/-- A header as a client should get it. -/
def Header.received (header : Header) : Cpp.Header where
  name := literal header.key
  value := header.value

/-- A message as a client should get it. -/
def Inbound.received (message : Inbound) : Cpp.Inbound where
  topic := literal message.topic
  partition := message.partition
  offset := message.offset
  value := message.value
  headers := message.headers.map Header.received

/-- A message as a client gets it: headers without a name are left out. -/
def Inbound.delivered (message : Inbound) : Cpp.Inbound :=
  { message.received with
    headers := (message.headers.filter (·.key ≠ "")).map Header.received }

end Proto

open Proto

def Header.set (header : Header) : HeaderField → Header
  | .key text => { header with name := literal text }
  | .value bytes => { header with value := some bytes }
  | .unknown _ => header

/-- What a field changes in a message that is read. -/
def Inbound.set (inbound : Inbound) : InboundField → Inbound
  | .topic text => { inbound with topic := literal text }
  | .partition number => { inbound with partition := number }
  | .offset number => { inbound with offset := number }
  | .value bytes => { inbound with value := bytes }
  | .header fields =>
    { inbound with
      headers :=
        inbound.headers ++ ([headerOf fields].filter (·.key ≠ "")).map Proto.Header.received }
  | _ => inbound

theorem readLengthDelimited_payload {number : FieldNumber} (rest : Bytes)
    (bound : (Field.delimited number bytes).payload.length < 2 ^ 64) :
    readLengthDelimited ((Field.delimited number bytes).payload ++ rest) = .ok (bytes, rest) := by
  rw [Field.payload, List.length_append] at bound
  rw [Field.payload, List.append_assoc]
  exact readLengthDelimited_encode rest (by omega)

theorem headerField_wire {field : HeaderField} (header : Header) (rest : Bytes)
    (bound : field.wire.payload.length < 2 ^ 64) :
    headerField header field.wire.number.val field.wire.wireType (field.wire.payload ++ rest) =
      (if field.skippable then Except.ok (header.set field)
        else .error unsupportedWireType).map (·, rest) := by
  cases field with
  | key text =>
    change (readLengthDelimited ((HeaderField.key text).wire.payload ++ rest)).map _ = _
    rw [HeaderField.wire, readLengthDelimited_payload rest bound]
    rfl
  | value bytes =>
    change (readLengthDelimited ((HeaderField.value bytes).wire.payload ++ rest)).map _ = _
    rw [HeaderField.wire, readLengthDelimited_payload rest bound]
    rfl
  | unknown other =>
    have skips : skipField other.field.wireType (other.field.payload ++ rest) = _ :=
      skipField_payload rest bound
    have isNew := other.unknown
    simp only [List.mem_cons, List.not_mem_nil, or_false, not_or] at isNew
    change headerField header other.field.number.val _ _ =
      Except.map _ (if skippable other.field = true then _ else _)
    simp only [headerField, isNew, false_and, if_false, HeaderField.wire, skips]
    by_cases fine : skippable other.field = true
    · rw [if_pos fine, if_pos fine]
      rfl
    · rw [if_neg fine, if_neg fine]
      rfl

theorem decodeHeaders_encode {fields : List HeaderField}
    (bound : (encode (fields.map HeaderField.wire)).length < 2 ^ 64) :
    decodeHeaders (encode (fields.map HeaderField.wire)) =
      if fields.all HeaderField.skippable then
        .ok (([headerOf fields].filter (·.key ≠ "")).map Proto.Header.received)
      else .error unsupportedWireType := by
  let blank : Proto.Header := { key := "", value := none }
  have reads :
      headerReader.run { name := [], value := none } (encode (fields.map HeaderField.wire)) =
      fields.foldlM (fun header field =>
        if field.skippable then Except.ok (Header.set header field) else .error unsupportedWireType)
        blank.received := by
    refine Reader.run_encode fun field member header rest => ?_
    refine headerField_wire header rest (lt_of_le_of_lt ?_ bound)
    exact length_payload_le (List.mem_map_of_mem member)
  have read : fields.foldl Header.set blank.received = (headerOf fields).received := by
    refine List.foldl_hom Proto.Header.received fun header field => ?_
    cases field <;> rfl
  rw [decodeHeaders, reads, foldlM_eq_ite (fun _ _ => rfl), read]
  cases fields.all HeaderField.skippable with
  | false => rfl
  | true =>
    by_cases nameless : (headerOf fields).key = "" <;>
      simp [Except.map, Proto.Header.received, nameless, literal_eq_nil_iff]

theorem inboundField_wire {field : InboundField} (inbound : Inbound) (rest : Bytes)
    (bound : field.wire.payload.length < 2 ^ 64) :
    inboundField inbound field.wire.number.val field.wire.wireType (field.wire.payload ++ rest) =
      (if field.skippable then Except.ok (inbound.set field)
        else .error unsupportedWireType).map (·, rest) := by
  cases field with
  | topic text =>
    change (readLengthDelimited ((InboundField.topic text).wire.payload ++ rest)).map _ = _
    rw [InboundField.wire, readLengthDelimited_payload rest bound]
    rfl
  | partition number =>
    change (readVarint ((InboundField.partition number).wire.payload ++ rest)).map _ = _
    rw [InboundField.wire, Field.payload, readVarint_encode rest (UInt64.toNat_lt _)]
    simp only [Except.map, ofNat_toInt64_toUInt64]
    rfl
  | offset number =>
    change (readVarint ((InboundField.offset number).wire.payload ++ rest)).map _ = _
    rw [InboundField.wire, Field.payload, readVarint_encode rest (UInt64.toNat_lt _)]
    simp only [Except.map, ofNat_toUInt64]
    rfl
  | value bytes =>
    change (readLengthDelimited ((InboundField.value bytes).wire.payload ++ rest)).map _ = _
    rw [InboundField.wire, readLengthDelimited_payload rest bound]
    rfl
  | header fields =>
    change (readLengthDelimited ((InboundField.header fields).wire.payload ++ rest)).bind _ = _
    have inner : (encode (fields.map HeaderField.wire)).length < 2 ^ 64 := by
      rw [InboundField.wire, Field.payload, List.length_append] at bound
      omega
    rw [InboundField.wire, readLengthDelimited_payload rest bound]
    change (decodeHeaders (encode (fields.map HeaderField.wire))).map _ = _
    rw [decodeHeaders_encode inner, InboundField.skippable]
    cases fields.all HeaderField.skippable <;> rfl
  | key | structured | schema | timestampMs =>
    have skips := skipField_payload rest bound
    change (skipField _ _).map _ = _
    rw [skips]
    rfl
  | unknown other =>
    have skips : skipField other.field.wireType (other.field.payload ++ rest) = _ :=
      skipField_payload rest bound
    have isNew := other.unknown
    simp only [List.mem_cons, List.not_mem_nil, or_false, not_or] at isNew
    change inboundField inbound other.field.number.val _ _ =
      Except.map _ (if skippable other.field = true then _ else _)
    simp only [inboundField, isNew, false_and, if_false, InboundField.wire, skips]
    by_cases fine : skippable other.field = true
    · rw [if_pos fine, if_pos fine]
      rfl
    · rw [if_neg fine, if_neg fine]
      rfl

/-- What is decoded: the message without its nameless headers, if every unknown field can be
skipped. -/
theorem decodeInbound_encode {fields : List InboundField}
    (bound : (encodeInbound fields).length < 2 ^ 64) :
    decodeInbound (encodeInbound fields) =
      if fields.all InboundField.skippable then .ok (inboundOf fields).delivered
      else .error unsupportedWireType := by
  have reads : decodeInbound (encodeInbound fields) =
      fields.foldlM (fun inbound field =>
        if field.skippable then Except.ok (Inbound.set inbound field)
        else .error unsupportedWireType)
        Proto.Inbound.empty.delivered := by
    refine Reader.run_encode fun field member inbound rest => ?_
    refine inboundField_wire inbound rest (lt_of_le_of_lt ?_ bound)
    exact length_payload_le (List.mem_map_of_mem member)
  have read : fields.foldl Inbound.set Proto.Inbound.empty.delivered =
      (inboundOf fields).delivered := by
    refine List.foldl_hom Proto.Inbound.delivered fun message field => ?_
    cases field with
    | header fields => simp [Proto.Inbound.set, Proto.Inbound.delivered, Inbound.set,
        Proto.Inbound.received, List.filter_append]
    | _ => rfl
  rw [reads, foldlM_eq_ite (fun _ _ => rfl), read]

theorem delivered_eq_received_iff (message : Proto.Inbound) :
    message.delivered = message.received ↔ ∀ header ∈ message.headers, header.key ≠ "" := by
  constructor
  · intro same header member
    have lengths := congrArg (fun inbound => inbound.headers.length) same
    simp only [Proto.Inbound.delivered, Proto.Inbound.received, List.length_map] at lengths
    have kept := List.length_filter_eq_length_iff.mp lengths header member
    exact of_decide_eq_true kept
  · intro named
    have kept : message.headers.filter (fun header => decide (header.key ≠ "")) = message.headers :=
      List.filter_eq_self.mpr fun header member => decide_eq_true (named header member)
    rw [Proto.Inbound.delivered, kept]
    rfl

/-- However a message is written, with whatever fields that are not known, it is decoded as it is
exactly if its headers have names and the unknown fields are varints or delimited. -/
theorem inbound_decoded_iff {message : Proto.Inbound} {fields : List InboundField}
    (means : inboundOf fields = message) (bound : (encodeInbound fields).length < 2 ^ 64) :
    decodeInbound (encodeInbound fields) = .ok message.received ↔
      (∀ header ∈ message.headers, header.key ≠ "") ∧
        ∀ field ∈ fields, field.skippable = true := by
  rw [decodeInbound_encode bound, means, ← delivered_eq_received_iff, ← List.all_eq_true]
  cases fields.all InboundField.skippable <;> simp

/-- A message with a named header, and a field of a later version. -/
def plainInbound : Proto.Inbound where
  topic := "orders"
  partition := -1
  offset := 4
  key := none
  value := [7]
  headers := [⟨"trace", none⟩, ⟨"trace", some []⟩]
  timestampMs := 0
  structured := none
  schema := none

theorem plain_inbound_is_decoded :
    decodeInbound (encodeInbound (plainInbound.fields ++
      [Unknown.mk (.varint ⟨12, by decide⟩ 1) (by decide)].map .unknown)) =
        .ok plainInbound.received := by
  refine (inbound_decoded_iff (inboundOf_fields plainInbound _) ?_).mpr ⟨?_, ?_⟩
  · decide +kernel
  · decide
  · decide

/-- A message with a header that has no name. -/
def namelessInbound : Proto.Inbound :=
  { plainInbound with headers := [⟨"", some [1]⟩] }

/-- The header without a name is lost, and a field of 32 bits is not skipped. -/
theorem nameless_header_and_fixed32_are_not_decoded :
    decodeInbound (encodeInbound namelessInbound.fields) =
        .ok { namelessInbound.received with headers := [] } ∧
      namelessInbound.received.headers = [⟨[], some [1]⟩] ∧
      decodeInbound (encodeInbound (plainInbound.fields ++
        [Unknown.mk (.fixed32 ⟨12, by decide⟩ 1) (by decide)].map .unknown)) =
          .error (transportError "unsupported protobuf wire type") := by
  refine ⟨?_, rfl, ?_⟩
  · rw [decodeInbound_encode (by decide +kernel)]
    rfl
  · rw [decodeInbound_encode (by decide +kernel)]
    rfl

end KrabkaGateway.Cpp
