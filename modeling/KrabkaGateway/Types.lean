import Mathlib.Logic.Basic

/-!
# Records, codecs and errors

The protocol-agnostic types of `types.rs`, `codec.rs` and `error.rs`. Byte
strings are lists of bytes. The coordinates in an error are only displayed and
are plain integers.
-/

namespace KrabkaGateway

abbrev Bytes := List UInt8

inductive SchemaFormat where
  | avro
  | json
  | protobuf
  deriving DecidableEq, Repr

/-- Selects the schema a structured value is serialised against. -/
structure SchemaSelector where
  subject : Option String
  id : Option Int32
  format : SchemaFormat
  deriving DecidableEq, Repr

inductive EncodeBody where
  | raw (bytes : Bytes)
  | structured (json : Bytes) (schema : SchemaSelector)
  deriving DecidableEq, Repr

inductive CodecError where
  | registry (message : String)
  | serialize (message : String)
  | validate (message : String)
  | framing (message : String)
  deriving DecidableEq, Repr

def CodecError.display : CodecError → String
  | .registry message => "schema registry error: " ++ message
  | .serialize message => "serialize error: " ++ message
  | .validate message => "validation error: " ++ message
  | .framing message => "framing error: " ++ message

/-- The native producer's errors. The gateway tells only one of them apart. -/
inductive ProducerError where
  | recoveryRequired
  | other (message : String)
  deriving DecidableEq, Repr

def ProducerError.display : ProducerError → String
  | .recoveryRequired =>
    "transaction outcome is unknown; call init_transactions before sending or beginning " ++
      "another transaction"
  | .other message => message

inductive GatewayError where
  | producer (source : ProducerError)
  | consumer (message : String)
  | unavailable
  | forward (message : String)
  | claim (message : String)
  | codec (source : CodecError)
  | unauthorized (message : String)
  | tooManyUnacked (topic : String) (partition : Int) (offset : Int)
  | other (message : String)
  deriving DecidableEq, Repr

/-- The `Display` text of an error. -/
def GatewayError.display : GatewayError → String
  | .producer source => "producer error: " ++ source.display
  | .consumer message => "consumer error: " ++ message
  | .unavailable => "dedup partition not owned by this replica or still warming up"
  | .forward message => "forward to owner failed: " ++ message
  | .claim message => "dedup claim could not be (de)serialized: " ++ message
  | .codec source => "codec error: " ++ source.display
  | .unauthorized message => "not authorized: " ++ message
  | .tooManyUnacked topic partition offset =>
    "outstanding record tracking limit reached for " ++ topic ++ "-" ++ toString partition ++
      " at offset " ++ toString offset
  | .other message => message

/-- One record to produce, independent of transport. -/
structure GatewayRecord where
  topic : String
  key : Option Bytes
  value : Bytes
  bodyStructured : Option (Bytes × SchemaSelector)
  headers : List (String × Option Bytes)
  partition : Option Int32
  timestampMs : Option Int64
  idempotencyKey : Option String
  deriving DecidableEq, Repr

/-- The codec input for a record. -/
def GatewayRecord.encodeBody (record : GatewayRecord) : EncodeBody :=
  match record.bodyStructured with
  | some (json, schema) => .structured json schema
  | none => .raw record.value

/-- Result of producing one record. -/
structure RecordOutcome where
  partition : Int32
  offset : Int64
  deduplicated : Bool
  deriving DecidableEq, Repr

structure ProducerRecord where
  topic : String
  partition : Option Int32
  key : Option Bytes
  value : Option Bytes
  headers : List (String × Option Bytes)
  timestampMs : Option Int64
  deriving DecidableEq, Repr

/-- Map a `GatewayRecord` to the native `ProducerRecord`. -/
def toProducerRecord (record : GatewayRecord) (value : Bytes) : ProducerRecord where
  topic := record.topic
  partition := record.partition
  key := record.key
  value := some value
  headers := record.headers
  timestampMs := record.timestampMs

end KrabkaGateway
