import KrabkaGateway.Schema.Wire
import KrabkaGateway.Lib.Fallible

/-!
# Decoding values

The decode side of `schema/codec.rs` with `schema/format`. What `avro.rs` and
`json.rs` make of a schema, and what the protobuf libraries make of a `.proto`
text and of a payload, are parameters. A prepared schema is computed anew where
the source keeps it for each schema id: the registry answers an id always alike.
-/

namespace KrabkaGateway

/-- The schema a value was written with. -/
structure SchemaMeta where
  subject : String
  id : Int32
  format : SchemaFormat
  deriving DecidableEq, Repr

structure Decoded where
  value : Bytes
  schema : Option SchemaMeta
  json : Option Bytes
  deriving DecidableEq, Repr

namespace Schema

/-- Why a `.proto` text has no descriptors. -/
inductive PoolError where
  | parse (error : String)
  | descriptor (error : String)
  deriving DecidableEq, Repr

/-- Why a payload has no JSON view. -/
inductive ViewError where
  | decode (error : String)
  | serialize (error : String)
  deriving DecidableEq, Repr

/-- The format libraries. `pool` gives the top-level messages of a `.proto` text in the order in
which it declares them, and `nested` those declared inside a message. -/
structure Formats (Message : Type) where
  avro : String → Except CodecError (Bytes → Except CodecError Bytes)
  json : String → Except CodecError (Bytes → Except CodecError Unit)
  pool : String → Except PoolError (List Message)
  nested : Message → List Message
  view : Message → Bytes → Except ViewError Bytes

inductive PreparedSchema (Message : Type) where
  | avro (deserialize : Bytes → Except CodecError Bytes)
  | json (validate : Bytes → Except CodecError Unit)
  | protobuf (message : Message)

variable {Message : Type} (formats : Formats Message)

/-- The descriptor of the first message of a `.proto` text. -/
def firstMessageDesc (schema : String) : Except CodecError Message :=
  match formats.pool schema with
  | .ok (message :: _) => .ok message
  | .ok [] => .error (.serialize "no message type defined in schema")
  | .error (.parse error) => .error (.serialize ("protobuf parse error: " ++ error))
  | .error (.descriptor error) => .error (.serialize ("protobuf descriptor error: " ++ error))

def deserializePrepared (message : Message) (payload : Bytes) : Except CodecError Bytes :=
  match formats.view message payload with
  | .ok json => .ok json
  | .error (.decode error) => .error (.serialize ("proto decode error: " ++ error))
  | .error (.serialize error) => .error (.serialize ("proto->JSON serialize error: " ++ error))

namespace PreparedSchema

def new (format : SchemaFormat) (schema : String) : Except CodecError (PreparedSchema Message) :=
  match format with
  | .avro => (formats.avro schema).map .avro
  | .json => (formats.json schema).map .json
  | .protobuf => (firstMessageDesc formats schema).map .protobuf

def deserialize (prepared : PreparedSchema Message) (payload : Bytes) : Except CodecError Bytes :=
  match prepared with
  | .avro deserialize => deserialize payload
  | .json validate => (validate payload).map fun _ => payload
  | .protobuf message => deserializePrepared formats message payload

end PreparedSchema

def selectMessage (nested : Message → List Message) : List Message → List Nat → Option Message
  | _, [] => none
  | messages, [index] => messages[index]?
  | messages, index :: rest =>
    messages[index]?.bind fun message => selectMessage nested (nested message) rest

end Schema

namespace SchemaRegistryCodec

open Lib Schema

variable {Message : Type}

def isFramed (value : Bytes) : Bool :=
  value.head? == some 0

/-- What stands behind the header, for protobuf without the message indexes. -/
def framedPayload (format : SchemaFormat) (rest : Bytes) : Except CodecError Bytes :=
  if format = .protobuf then stripProtoIndexBytes rest else .ok rest

theorem framedPayload_protobuf (rest : Bytes) :
    framedPayload .protobuf rest = stripProtoIndexBytes rest :=
  rfl

/-- A value that is empty or does not start with the magic byte passes through. -/
def decode (codec : SchemaRegistryCodec) (formats : Formats Message) (topic : String)
    (value : Bytes) : Except CodecError Decoded :=
  if !isFramed value then .ok { value, schema := none, json := none }
  else do
    let (id, rest) ← decodeFrameBytes value
    let (schema, format) ← codec.client.byId id
    let payload ← framedPayload format rest
    let prepared ← PreparedSchema.new formats format schema
    let json ← prepared.deserialize formats payload
    return { value := payload, schema := some ⟨subjectFor topic, id, format⟩, json := some json }

variable {codec : SchemaRegistryCodec} {formats : Formats Message} {topic : String} {value : Bytes}

theorem decode_unframed (unframed : isFramed value = false) :
    codec.decode formats topic value = .ok { value, schema := none, json := none } := by
  simp [decode, unframed]

variable {decoded : Decoded}

/-- A framed value that decodes has a header, a registered schema and a payload behind them, and
its JSON view is that of the prepared schema. -/
theorem decode_framed (framed : isFramed value = true)
    (result : codec.decode formats topic value = .ok decoded) :
    ∃ id rest schema format payload prepared json,
      decodeFrameBytes value = .ok (id, rest) ∧ codec.client.byId id = .ok (schema, format) ∧
      framedPayload format rest = .ok payload ∧
      PreparedSchema.new formats format schema = .ok prepared ∧
      prepared.deserialize formats payload = .ok json ∧
      decoded = ⟨payload, some ⟨subjectFor topic, id, format⟩, some json⟩ := by
  simp only [decode, framed, Bool.not_true, Bool.false_eq_true, if_false] at result
  obtain ⟨⟨id, rest⟩, frame, result⟩ := ok_of_bind result
  obtain ⟨⟨schema, format⟩, registered, result⟩ := ok_of_bind result
  obtain ⟨payload, stripped, result⟩ := ok_of_bind result
  obtain ⟨prepared, compiled, result⟩ := ok_of_bind result
  obtain ⟨json, viewed, result⟩ := ok_of_bind result
  exact ⟨id, rest, schema, format, payload, prepared, json, frame, registered, stripped, compiled,
    viewed, (Except.ok.inj result).symm⟩

/-- The payload of a framed value is shorter than the value. -/
theorem length_decode_framed (framed : isFramed value = true)
    (result : codec.decode formats topic value = .ok decoded) :
    decoded.value.length < value.length := by
  obtain ⟨id, rest, schema, format, payload, prepared, json, frame, _, stripped, _, _, rfl⟩ :=
    decode_framed framed result
  have header := length_decodeFrameBytes frame
  unfold framedPayload at stripped
  split at stripped
  · have := length_stripProtoIndexBytes stripped
    dsimp only
    omega
  · cases stripped
    dsimp only
    omega

/-! ## The message type of a protobuf value -/

/-- A protobuf value as a client of the registry writes it. -/
def protobufFrame (id : Int32) (indexes : MessageIndexes) (payload : Bytes) : Bytes :=
  0 :: (bigEndian id ++ (indexes.bytes ++ payload))

def DecodesAs (codec : SchemaRegistryCodec) (formats : Formats Message) (topic : String)
    (value : Bytes) (message : Message) (payload : Bytes) : Prop :=
  ∀ decoded, codec.decode formats topic value = .ok decoded →
    ∃ json, formats.view message payload = .ok json ∧ decoded.json = some json

/-- A protobuf frame decodes to the view, under the first message of the schema, of what is left
when the indexes have been skipped. -/
theorem decode_protobufFrame {schema : String} {id : Int32} {first : Message}
    {others : List Message} (registered : codec.client.byId id = .ok (schema, .protobuf))
    (pool : formats.pool schema = .ok (first :: others)) (indexes : MessageIndexes)
    (payload : Bytes) :
    codec.decode formats topic (protobufFrame id indexes payload) = do
      let rest ← stripProtoIndexBytes (indexes.bytes ++ payload)
      let json ← deserializePrepared formats first rest
      return ⟨rest, some ⟨subjectFor topic, id, .protobuf⟩, some json⟩ := by
  have prepared : PreparedSchema.new formats .protobuf schema = .ok (.protobuf first) := by
    simp only [PreparedSchema.new, firstMessageDesc, pool]
    rfl
  simp only [decode, protobufFrame, isFramed, List.head?_cons, BEq.rfl, Bool.not_true,
    Bool.false_eq_true, if_false, decodeFrameBytes_bigEndian]
  simp only [bind, Except.bind, registered, framedPayload_protobuf, prepared,
    PreparedSchema.deserialize]

theorem deserializePrepared_ok {message : Message} {payload json : Bytes}
    (viewed : deserializePrepared formats message payload = .ok json) :
    formats.view message payload = .ok json := by
  unfold deserializePrepared at viewed
  split at viewed
  · rename_i found
    cases viewed
    exact found
  · cases viewed
  · cases viewed

def plainFormats (nested : Message → List Message) (messages : List Message) :
    Formats Message where
  avro _ := .error (.serialize "avro")
  json _ := .error (.serialize "json")
  pool _ := .ok messages
  nested := nested
  view _ payload := .ok payload

def registryOf (schema : String) (format : SchemaFormat) : SchemaRegistryCodec where
  client :=
    { byId := fun _ => .ok (schema, format)
      latest := fun _ => .ok (1, schema, format) }
  frameRaw := false
  serialize _ _ json := .ok json

theorem skipVarints_zeros (count : Nat) :
    skipVarints count (List.replicate count 0) = .ok [] := by
  induction count with
  | zero => rfl
  | succ count ih => exact ih

/-- For every schema and every message of it: the values that name the message by `indexes` are
decoded as that message, whatever the libraries show of it, exactly if `indexes` is the short form
for the first message. -/
theorem decodes_as_selected_iff (nested : Message → List Message) (messages : List Message)
    (indexes : MessageIndexes) (message : Message)
    (selected : selectMessage nested messages indexes.path = some message) :
    (∀ (codec : SchemaRegistryCodec) (formats : Formats Message) (topic schema : String)
        (id : Int32) (payload : Bytes),
      codec.client.byId id = .ok (schema, .protobuf) → formats.pool schema = .ok messages →
      formats.nested = nested →
      codec.DecodesAs formats topic (protobufFrame id indexes payload) message payload) ↔
    indexes.path = [0] := by
  cases messages with
  | nil =>
    exfalso
    cases path : indexes.path with
    | nil => exact indexes.nonempty path
    | cons index rest => cases rest <;> simp [path, selectMessage] at selected
  | cons first others =>
  constructor
  · intro decodes
    by_contra other
    -- The reader eats one number of the payload for each index.
    have skipped := indexes.strip_other other (List.replicate indexes.path.length 0)
    have result := decodes (registryOf "" .protobuf) (plainFormats nested (first :: others)) "" ""
      0 (List.replicate indexes.path.length 0) rfl rfl rfl
      ⟨[], some ⟨subjectFor "", 0, .protobuf⟩, some []⟩
      (by
        rw [decode_protobufFrame rfl rfl, skipped, skipVarints_zeros]
        rfl)
    obtain ⟨json, viewed, shown⟩ := result
    cases viewed
    have : indexes.path.length = 0 := by simpa using shown
    exact indexes.nonempty (List.length_eq_zero_iff.mp this)
  · intro short codec formats topic schema id payload registered pool _ decoded result
    have isFirst : first = message := by simpa [short, selectMessage] using selected
    have written : indexes.bytes ++ payload = 0 :: payload := by
      simp [MessageIndexes.bytes, messageIndexBytes, short]
    rw [decode_protobufFrame registered pool, written, MessageIndexes.strip_first] at result
    obtain ⟨rest, behind, result⟩ := ok_of_bind result
    cases behind
    obtain ⟨json, viewed, result⟩ := ok_of_bind result
    cases result
    exact ⟨json, isFirst ▸ deserializePrepared_ok viewed, rfl⟩

def pointSchema : String :=
  "syntax = \"proto3\"; message Point \x7b int32 x = 1; int32 y = 2; \x7d " ++
    "message Code \x7b fixed32 c = 1; \x7d"

/-- The messages of that schema. -/
inductive PointOrCode where
  | point
  | code
  deriving DecidableEq, Repr

def jsonNumbers (members : List (Char × Nat)) : Bytes :=
  let text := members.map fun (name, number) => ['"', name, '"', ':'] ++ Nat.toDigits 10 number
  ([123] ++ (List.intercalate [','] text).map fun char => char.toNat.toUInt8) ++ [125]

/-- Payloads of the two messages in the wire format of protobuf: for a point a tag and a varint
of one byte for each field, for a code a tag and four bytes, lowest first. -/
def pointFormats : Formats PointOrCode where
  avro _ := .error (.serialize "not avro")
  json _ := .error (.serialize "not json")
  pool schema :=
    if schema = pointSchema then .ok [.point, .code] else .error (.parse "unknown schema")
  nested _ := []
  view
    | .point, [0x08, x, 0x10, y] => .ok (jsonNumbers [('x', x.toNat), ('y', y.toNat)])
    | .code, [0x0d, first, second, third, fourth] =>
      .ok (jsonNumbers [('c',
        first.toNat + 256 * (second.toNat + 256 * (third.toNat + 256 * fourth.toNat)))])
    | _, _ => .error (.decode "invalid payload")

def pointIndexes : MessageIndexes := ⟨[0], by decide, by decide, by decide⟩

def codeIndexes : MessageIndexes := ⟨[1], by decide, by decide, by decide⟩

theorem point_decodes_as_selected :
    (registryOf pointSchema .protobuf).DecodesAs pointFormats "shapes"
        (protobufFrame 7 pointIndexes [0x08, 5, 0x10, 7]) .point [0x08, 5, 0x10, 7] ∧
      ((registryOf pointSchema .protobuf).decode pointFormats "shapes"
        (protobufFrame 7 pointIndexes [0x08, 5, 0x10, 7])).isOk = true :=
  ⟨(decodes_as_selected_iff pointFormats.nested [.point, .code] pointIndexes .point rfl).mpr rfl
    _ _ _ _ _ _ rfl (by decide) rfl, by decide⟩

/-- A code with the number 118490376, written with the indexes `02 02`, comes out as the point
(5, 7). -/
theorem code_decodes_as_point :
    protobufFrame 7 codeIndexes [0x0d, 0x08, 5, 0x10, 7] =
        [0, 0, 0, 0, 7, 2, 2, 0x0d, 0x08, 5, 0x10, 7] ∧
      selectMessage pointFormats.nested [.point, .code] codeIndexes.path = some .code ∧
      pointFormats.view .code [0x0d, 0x08, 5, 0x10, 7] = .ok (jsonNumbers [('c', 118490376)]) ∧
      (registryOf pointSchema .protobuf).decode pointFormats "shapes"
          [0, 0, 0, 0, 7, 2, 2, 0x0d, 0x08, 5, 0x10, 7] =
        .ok ⟨[0x08, 5, 0x10, 7], some ⟨"shapes-value", 7, .protobuf⟩,
          some (jsonNumbers [('x', 5), ('y', 7)])⟩ := by
  have two : Leb128.encode 2 = [2] := Leb128.encode_of_lt (by decide)
  have written : codeIndexes.bytes = [2, 2] := by
    simp [MessageIndexes.bytes, messageIndexBytes, codeIndexes, zigzag, two]
  refine ⟨?_, rfl, by decide, by decide⟩
  rw [protobufFrame, written]
  decide

end SchemaRegistryCodec

end KrabkaGateway
