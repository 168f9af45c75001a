import KrabkaGateway.Codec
import KrabkaGateway.Dedup.Claims
import KrabkaGateway.Forward.Client

/-!
# The produce path

`ProduceCore` of `produce.rs`: where a record is produced and how, and the result
classes the public entry points of `handlers.rs` and `webhook.rs` make of it. The
dedup engine, the membership table and the native producers are parameters.
-/

namespace KrabkaGateway

open Dedup Forward

inductive Acks where
  | all
  | one
  | zero
  deriving DecidableEq, Repr

/-- The membership routing table and the client that follows it. -/
structure Forwarding where
  ownerOf : Nat → Option String
  forwarder : Forwarder
  selfAddr : String

/-- `send` is the native producer for each acknowledgement level. -/
structure ProduceCore where
  codec : RecordCodec
  dedup : Option Service
  forwarding : Option Forwarding
  send : Acks → ProducerRecord → Except ProducerError (Int32 × Int64)

/-- Where a record is produced. -/
inductive Route where
  | here
  | owner (addr : String)
  | unknown
  deriving DecidableEq, Repr

namespace ProduceCore

def route (core : ProduceCore) (record : GatewayRecord) : Route :=
  match core.dedup, core.forwarding, record.idempotencyKey with
  | some dedup, some forwarding, some key =>
    let partition := partitionFor key dedup.partitions
    if dedup.owns partition then .here
    else
      match forwarding.ownerOf partition with
      | some addr => if addr = forwarding.selfAddr then .here else .owner addr
      | none => .unknown
  | _, _, _ => .here

def producePlain (core : ProduceCore) (native : ProducerRecord) (acks : Acks) :
    Except GatewayError RecordOutcome :=
  match core.send acks native with
  | .ok (partition, offset) => .ok { partition, offset, deduplicated := false }
  | .error source => .error (.producer source)

def produceLocalWithAcks (core : ProduceCore) (record : GatewayRecord) (acks : Acks) :
    Except GatewayError RecordOutcome :=
  match core.codec.encode record.topic record.encodeBody with
  | .error source => .error (.codec source)
  | .ok value =>
    match core.dedup, record.idempotencyKey with
    | some dedup, some _ => dedup.dedupProduce record value
    | _, _ => core.producePlain (toProducerRecord record value) acks

def produceLocal (core : ProduceCore) (record : GatewayRecord) :
    Except GatewayError RecordOutcome :=
  core.produceLocalWithAcks record .all

def produceWithAcks (core : ProduceCore) (record : GatewayRecord) (caller : Principal)
    (acks : Acks) : Except GatewayError RecordOutcome :=
  if record.idempotencyKey.isSome ∧ acks ≠ .all then
    .error (.other "idempotency_key requires ACKS_ALL")
  else
    match core.route record with
    | .here => core.produceLocalWithAcks record acks
    | .unknown => .error .unavailable
    | .owner addr =>
      match core.forwarding with
      | some forwarding => forwarding.forwarder.forward addr record caller
      | none => .error (.other "forwarding route has no forwarder")

/-- The public entry point. -/
def produce (core : ProduceCore) (record : GatewayRecord) (caller : Principal) :
    Except GatewayError RecordOutcome :=
  core.produceWithAcks record caller .all

end ProduceCore

/-! ## The record a local produce writes -/

/-- The native record of a local produce and the key it is deduplicated under; none when the codec
refuses the body. -/
def written (codec : RecordCodec) (record : GatewayRecord) :
    Option (Option String × ProducerRecord) :=
  match codec.encode record.topic record.encodeBody with
  | .error _ => none
  | .ok value => some (record.idempotencyKey, toProducerRecord record value)

/-- A codec that passes raw bodies writes a raw record with its own value. -/
theorem written_of_passesRaw {codec : RecordCodec} (passes : codec.PassesRaw)
    {record : GatewayRecord} (raw : record.bodyStructured = none) :
    written codec record =
      some (record.idempotencyKey, toProducerRecord record record.value) := by
  have encoded : codec.encode record.topic record.encodeBody = .ok record.value := by
    rw [GatewayRecord.encodeBody, raw]
    exact passes record.topic record.value
  rw [written, encoded]

namespace ProduceCore

def write (core : ProduceCore) (key : Option String) (native : ProducerRecord) (acks : Acks) :
    Except GatewayError RecordOutcome :=
  match core.dedup, key with
  | some dedup, some key => (dedup.produce key native).mapError DedupError.toGatewayError
  | _, _ => core.producePlain native acks

theorem produceLocalWithAcks_of_written {core : ProduceCore} {record : GatewayRecord}
    {key : Option String} {native : ProducerRecord}
    (writes : written core.codec record = some (key, native)) (acks : Acks) :
    core.produceLocalWithAcks record acks = core.write key native acks := by
  unfold written at writes
  split at writes
  · contradiction
  · rename_i value encoded
    simp only [Option.some.injEq, Prod.mk.injEq] at writes
    obtain ⟨rfl, rfl⟩ := writes
    simp only [produceLocalWithAcks, encoded, write]
    cases core.dedup with
    | none => rfl
    | some dedup =>
      cases keyed : record.idempotencyKey with
      | none => rfl
      | some key =>
        simp only [Service.dedupProduce, keyed]
        cases dedup.produce key (toProducerRecord record value) <;> rfl

end ProduceCore

/-! ## Result classes -/

structure ErrorInfo where
  code : Nat
  message : String
  retriable : Bool
  deriving DecidableEq, Repr

structure RecordResult where
  partition : Int32
  offset : Int64
  deduplicated : Bool
  error : Option ErrorInfo
  deriving DecidableEq, Repr

def errorResult (error : GatewayError) : RecordResult where
  partition := -1
  offset := -1
  deduplicated := false
  error := some {
    code :=
      match error with
      | .unavailable | .codec (.registry _) => 14
      | .unauthorized _ => 7
      | .codec _ => 3
      | _ => 1
    message := error.display
    retriable :=
      match error with
      | .unavailable | .codec (.registry _) => true
      | _ => false }

def sendResult : Except GatewayError RecordOutcome → RecordResult
  | .ok outcome =>
    { partition := outcome.partition, offset := outcome.offset,
      deduplicated := outcome.deduplicated, error := none }
  | .error error => errorResult error

/-- What a caller can do about a result. -/
inductive ResultClass where
  | success
  | retriable
  | permanent
  | denied
  deriving DecidableEq, Repr

def RecordResult.resultClass (result : RecordResult) : ResultClass :=
  match result.error with
  | none => .success
  | some info =>
    if info.retriable then .retriable else if info.code = 7 then .denied else .permanent

def resultClass (result : Except GatewayError RecordOutcome) : ResultClass :=
  (sendResult result).resultClass

end KrabkaGateway
