import KrabkaGateway.Schema.Decode
import KrabkaGateway.Consume.Delivery

/-!
# Decoding a polled batch

`ConsumeSession::poll` decodes the value of each record, and the first value
that does not decode fails the whole batch and ends the stream. A record whose
value was produced raw is read back as it was produced unless its value looks
like a frame of the registry.
-/

namespace KrabkaGateway.Consume

open Lib

structure ConsumerRecord where
  topic : String
  partition : Int
  offset : Int
  timestamp : Int
  key : Option Bytes
  value : Option Bytes
  headers : List (String × Option Bytes)
  deriving DecidableEq, Repr

structure DecodedConsumerRecord where
  topic : String
  partition : Int
  offset : Int
  timestamp : Int
  key : Option Bytes
  rawValue : Bytes
  value : Bytes
  headers : List (String × Option Bytes)
  schema : Option SchemaMeta
  json : Option Bytes
  deriving DecidableEq, Repr

/-- The decoding of a codec, for a topic. -/
abbrev Decoder := String → Bytes → Except CodecError Decoded

def ConsumerRecord.decode (decoder : Decoder) (record : ConsumerRecord) :
    Except GatewayError DecodedConsumerRecord :=
  let decoded (rawValue : Bytes) (value : Decoded) : DecodedConsumerRecord :=
    { topic := record.topic, partition := record.partition, offset := record.offset,
      timestamp := record.timestamp, key := record.key, rawValue, value := value.value,
      headers := record.headers, schema := value.schema, json := value.json }
  match record.value with
  | none => .ok (decoded [] ⟨[], none, none⟩)
  | some value =>
    match decoder record.topic value with
    | .ok result => .ok (decoded value result)
    | .error error => .error (.codec error)

def decodeBatch (decoder : Decoder) (batch : List ConsumerRecord) :
    Except GatewayError (List DecodedConsumerRecord) :=
  batch.mapM (ConsumerRecord.decode decoder)

/-- What `subscribe_inner` does next: the records go on to the filter, and an error ends the
stream. -/
def pollAction (keep : List DecodedConsumerRecord → Coordinate → Bool)
    (polled : Except GatewayError (List DecodedConsumerRecord)) : Action :=
  match polled with
  | .ok records => .decoded (keep records)
  | .error error => .pollFailed error.display

/-- A record that decodes does not decide whether a batch does. -/
theorem isOk_decodeBatch_insert {decoder : Decoder} {record : ConsumerRecord}
    (decodes : (record.decode decoder).isOk = true) (before after : List ConsumerRecord) :
    (decodeBatch decoder (before ++ record :: after)).isOk =
      (decodeBatch decoder (before ++ after)).isOk := by
  rw [decodeBatch, decodeBatch, isOk_mapM, isOk_mapM]
  simp [decodes]

/-- The raw body is produced as it is and decodes to itself, and no batch fails because of a record
with that value. -/
structure ReadBack {Message : Type} (codec : SchemaRegistryCodec)
    (formats : Schema.Formats Message) (topic : String) (body : Bytes) : Prop where
  encoded : codec.encode topic (.raw body) = .ok body
  decoded : ∃ decoded, codec.decode formats topic body = .ok decoded ∧ decoded.value = body
  harmless : ∀ record : ConsumerRecord, record.topic = topic → record.value = some body →
    ∀ before after, (decodeBatch (codec.decode formats) (before ++ record :: after)).isOk =
      (decodeBatch (codec.decode formats) (before ++ after)).isOk

theorem raw_read_back_iff {Message : Type} (codec : SchemaRegistryCodec)
    (formats : Schema.Formats Message) (unframed : codec.frameRaw = false) (topic : String)
    (body : Bytes) : ReadBack codec formats topic body ↔ body.head? ≠ some 0 := by
  constructor
  · intro readBack magic
    obtain ⟨decoded, result, same⟩ := readBack.decoded
    have framed : SchemaRegistryCodec.isFramed body = true := by
      simp [SchemaRegistryCodec.isFramed, magic]
    have shorter := SchemaRegistryCodec.length_decode_framed framed result
    rw [same] at shorter
    exact Nat.lt_irrefl _ shorter
  · intro magic
    have passes : codec.decode formats topic body = .ok ⟨body, none, none⟩ :=
      SchemaRegistryCodec.decode_unframed (by simpa [SchemaRegistryCodec.isFramed] using magic)
    refine ⟨SchemaRegistryCodec.passesRaw unframed topic body, ⟨_, passes, rfl⟩, ?_⟩
    intro record topicEq value before after
    apply isOk_decodeBatch_insert
    simp only [ConsumerRecord.decode, value, topicEq, passes]
    rfl

/-- A record of the topic `orders` without key and headers. -/
def plainRecord (offset : Int) (value : Bytes) : ConsumerRecord where
  topic := "orders"
  partition := 0
  offset := offset
  timestamp := 0
  key := none
  value := some value
  headers := []

theorem text_read_back :
    ReadBack (SchemaRegistryCodec.registryOf "points" .protobuf) SchemaRegistryCodec.pointFormats
      "orders" [104, 105] :=
  (raw_read_back_iff (SchemaRegistryCodec.registryOf "points" .protobuf)
    SchemaRegistryCodec.pointFormats rfl "orders" [104, 105]).mpr (by decide)

/-- A client produces the one byte `00`. It is accepted, and the next poll that returns it fails
with the records beside it and ends the subscription. -/
theorem zero_byte_ends_subscription :
    (SchemaRegistryCodec.registryOf "points" .protobuf).encode "orders" (.raw [0]) = .ok [0] ∧
      decodeBatch
          ((SchemaRegistryCodec.registryOf "points" .protobuf).decode
            SchemaRegistryCodec.pointFormats)
          [plainRecord 0 [104, 105], plainRecord 1 [0]] =
        .error (.codec (.framing "frame too short: 1 bytes (need at least 5)")) ∧
      (Run.exec (Subscription.step fun _ _ => true) (Subscription.start false fun _ => 0)
        [.assign Subscription.orders, .nativePoll [Subscription.orders] fun _ => 2,
          pollAction (fun _ _ => true) (decodeBatch
            ((SchemaRegistryCodec.registryOf "points" .protobuf).decode
              SchemaRegistryCodec.pointFormats)
            [plainRecord 0 [104, 105], plainRecord 1 [0]])]).map (·.phase) =
        some (.closed (some (.internal
          "codec error: framing error: frame too short: 1 bytes (need at least 5)"))) := by
  refine ⟨rfl, by decide, by decide⟩

end KrabkaGateway.Consume
