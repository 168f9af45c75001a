import KrabkaGateway.Types

/-!
# Idempotency keys and claims

The partition a key is deduplicated in and the claim that records where its data
record went, from `dedup/mod.rs` and `dedup/store.rs`.
-/

namespace KrabkaGateway.Dedup

def keyHash (key : String) : UInt64 :=
  key.toUTF8.toList.foldl (fun hash byte => (hash ^^^ byte.toUInt64) * 0x100000001b3)
    0xcbf29ce484222325

def partitionFor (key : String) (partitions : Nat) : Nat :=
  (keyHash key).toNat % partitions

/-- Where the data record of a key was written. -/
structure ClaimValue where
  topic : String
  partition : Int32
  offset : Int64
  deriving DecidableEq, Repr

inductive DedupError where
  | unavailable
  | producer (source : ProducerError)
  | claim (message : String)
  deriving DecidableEq, Repr

def DedupError.toGatewayError : DedupError → GatewayError
  | .unavailable => .unavailable
  | .producer source => .producer source
  | .claim message => .claim message

/-- The dedup engine as the produce path sees it: the partitions it owns and the answer it would
give to a keyed native record. -/
structure Service where
  partitions : Nat
  owns : Nat → Bool
  produce : String → ProducerRecord → Except DedupError RecordOutcome

def Service.dedupProduce (service : Service) (record : GatewayRecord) (value : Bytes) :
    Except GatewayError RecordOutcome :=
  match record.idempotencyKey with
  | none => .error (.other "dedup_produce called without idempotency_key")
  | some key =>
    match service.produce key (toProducerRecord record value) with
    | .ok outcome => .ok outcome
    | .error error => .error error.toGatewayError

end KrabkaGateway.Dedup
