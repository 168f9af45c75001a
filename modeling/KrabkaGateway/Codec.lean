import KrabkaGateway.Types

/-!
# Value codecs

The encode side of `codec.rs`, `schema/codec.rs` and `schema/wire.rs`. The schema
registry client and the schema formats are parameters: what they answer is
whatever the registry and the format libraries say.
-/

namespace KrabkaGateway

structure RecordCodec where
  encode : String → EncodeBody → Except CodecError Bytes

def rawCodec : RecordCodec where
  encode _ body :=
    match body with
    | .raw bytes => .ok bytes
    | .structured json _ => .ok json

/-- Lookups in the schema registry. -/
structure SchemaResolver where
  byId : Int32 → Except CodecError (String × SchemaFormat)
  latest : String → Except CodecError (Int32 × String × SchemaFormat)

def subjectFor (topic : String) : String :=
  topic ++ "-value"

def bigEndian (id : Int32) : Bytes :=
  let bits := id.toUInt32
  [(bits >>> 24).toUInt8, (bits >>> 16).toUInt8, (bits >>> 8).toUInt8, bits.toUInt8]

/-- The registry's frame: a zero byte, the schema id and, before a protobuf payload, the index
of its first message. -/
def encodeFrame (id : Int32) (format : SchemaFormat) (payload : Bytes) : Bytes :=
  0 :: (bigEndian id ++ (if format = .protobuf then [0] else []) ++ payload)

/-- A codec over the schema registry. `serialize` prepares a schema and writes a structured body
against it. -/
structure SchemaRegistryCodec where
  client : SchemaResolver
  frameRaw : Bool
  serialize : SchemaFormat → String → Bytes → Except CodecError Bytes

namespace SchemaRegistryCodec

/-- The schema a structured body is written against. A registry failure on the subject's latest
schema is reported as an unregistered subject. -/
def resolve (codec : SchemaRegistryCodec) (topic : String) (schema : SchemaSelector) :
    Except CodecError (Int32 × String × SchemaFormat) :=
  match schema.id with
  | some id =>
    match codec.client.byId id with
    | .ok (text, format) => .ok (id, text, format)
    | .error error => .error error
  | none =>
    let subject := schema.subject.getD (subjectFor topic)
    match codec.client.latest subject with
    | .ok found => .ok found
    | .error (.registry _) => .error (.registry ("no schema registered for subject " ++ subject))
    | .error error => .error error

def encode (codec : SchemaRegistryCodec) (topic : String) :
    EncodeBody → Except CodecError Bytes
  | .raw bytes =>
    if codec.frameRaw then
      match codec.client.latest (subjectFor topic) with
      | .ok (id, _, format) => .ok (encodeFrame id format bytes)
      | .error error => .error error
    else .ok bytes
  | .structured json schema =>
    match codec.resolve topic schema with
    | .ok (id, text, format) =>
      match codec.serialize format text json with
      | .ok payload => .ok (encodeFrame id format payload)
      | .error error => .error error
    | .error error => .error error

def recordCodec (codec : SchemaRegistryCodec) : RecordCodec where
  encode := codec.encode

end SchemaRegistryCodec

/-- Raw bodies come out as they went in. -/
def RecordCodec.PassesRaw (codec : RecordCodec) : Prop :=
  ∀ topic bytes, codec.encode topic (.raw bytes) = .ok bytes

theorem rawCodec_passesRaw : rawCodec.PassesRaw :=
  fun _ _ => rfl

theorem SchemaRegistryCodec.passesRaw {codec : SchemaRegistryCodec}
    (unframed : codec.frameRaw = false) : codec.recordCodec.PassesRaw := by
  intro topic bytes
  simp [recordCodec, encode, unframed]

end KrabkaGateway
