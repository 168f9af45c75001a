import KrabkaGateway.Forward.Handler

/-!
# What forwarding keeps

A keyed record that reaches a replica which does not own its partition makes one
hop to the owner. This module compares the hop with a direct request to the owner:
the record that is written, the class of the result and the authorization.
-/

namespace KrabkaGateway.Forward

open Lib.Json Dedup

/-! ## Records -/

/-- Whatever the owner admits of a forwarded record, it writes what it would have written for the
record itself. -/
def KeepsRecord (record : GatewayRecord) : Prop :=
  ∀ (Cache : Type) (owner : AppState Cache) (peer : Option Principal) (caller : Principal)
    (admitted : GatewayRecord), receive owner peer (forwardBody record caller) = .ok admitted →
      written owner.core.codec admitted = written owner.core.codec record

variable {Cache : Type} {peer : Option Principal} {record : GatewayRecord} {owner : AppState Cache}

theorem eq_of_receive {admitted : GatewayRecord} {caller : Principal}
    (admits : receive owner peer (forwardBody record caller) = .ok admitted) :
    admitted = { record with bodyStructured := none } := by
  rw [receive_forwardBody] at admits
  split at admits
  · contradiction
  · split at admits
    · contradiction
    · split at admits
      · contradiction
      · exact (Except.ok.inj admits).symm

def registryDown : SchemaRegistryCodec where
  client :=
    { byId := fun _ => .error (.registry "connection refused")
      latest := fun _ => .error (.registry "connection refused") }
  frameRaw := false
  serialize _ _ json := .ok json

theorem registryDown_structured (topic : String) (json : Bytes) (schema : SchemaSelector) :
    ∃ message, registryDown.encode topic (.structured json schema) =
      .error (.registry message) := by
  simp only [SchemaRegistryCodec.encode, SchemaRegistryCodec.resolve, registryDown]
  cases schema.id <;> simp

theorem registryDown_passesRaw : registryDown.recordCodec.PassesRaw :=
  SchemaRegistryCodec.passesRaw rfl

theorem registryDown_encodeBody {body : Bytes × SchemaSelector}
    (structured : record.bodyStructured = some body) :
    ∃ message, registryDown.recordCodec.encode record.topic record.encodeBody =
      .error (.registry message) := by
  rw [GatewayRecord.encodeBody, structured]
  exact registryDown_structured record.topic body.1 body.2

def accepting : Service where
  partitions := 1
  owns _ := true
  produce _ _ := .ok { partition := 0, offset := 0, deduplicated := false }

def acceptingCore (codec : RecordCodec) : ProduceCore where
  codec := codec
  dedup := some accepting
  forwarding := none
  send _ _ := .ok (0, 0)

/-- Forwarding keeps exactly the records without a structured body. -/
theorem keepsRecord_iff_raw (record : GatewayRecord) :
    KeepsRecord record ↔ record.bodyStructured = none := by
  constructor
  · intro keeps
    cases structured : record.bodyStructured with
    | none => rfl
    | some body =>
      -- An open endpoint whose registry is down writes the forwarded record, not the record.
      let owner : AppState Unit :=
        { core := acceptingCore registryDown.recordCodec, authz := allowAll, tls := false
          runtime := { RuntimeConfig.default with
            forwardMaxBody := forwardSize record anonymousPrincipal } }
      have admits : receive owner none (forwardBody record anonymousPrincipal) =
          .ok { record with bodyStructured := none } := by
        simp [receive_forwardBody, owner, authorizeResource, allowAll]
      have same := keeps Unit owner none anonymousPrincipal _ admits
      obtain ⟨message, refused⟩ := registryDown_encodeBody structured
      have nothing : written owner.core.codec record = none := by
        simp only [written, owner, acceptingCore, refused]
      have something : written owner.core.codec { record with bodyStructured := none } =
          some (record.idempotencyKey, _) := written_of_passesRaw registryDown_passesRaw rfl
      rw [nothing, something] at same
      exact absurd same (Option.some_ne_none _)
  · intro raw Cache owner peer caller admitted admits
    rw [eq_of_receive admits, ← raw]

def structuredOrder : GatewayRecord where
  topic := "orders"
  key := none
  value := []
  bodyStructured := some ([123, 34, 97, 34, 58, 49, 125], ⟨none, none, .avro⟩)
  headers := []
  partition := none
  timestampMs := none
  idempotencyKey := some "order-1"

def plainOwner : AppState Unit where
  core := acceptingCore rawCodec
  authz := allowAll
  tls := false
  runtime := .default

/-- Sent to the owner the order is written with its text, forwarded it is written empty. -/
theorem structured_body_lost :
    ∃ admitted, receive plainOwner none (forwardBody structuredOrder anonymousPrincipal) =
        .ok admitted ∧
      (written rawCodec structuredOrder).map (fun entry => entry.2.value) =
        some (some [123, 34, 97, 34, 58, 49, 125]) ∧
      (written rawCodec admitted).map (fun entry => entry.2.value) = some (some []) := by
  refine ⟨{ structuredOrder with bodyStructured := none }, ?_, rfl, rfl⟩
  have small : ¬ plainOwner.runtime.forwardMaxBody <
      forwardSize structuredOrder anonymousPrincipal := by decide
  rw [receive_forwardBody, if_neg small]
  rfl

/-! ## Result classes -/

/-- The codecs a gateway can run with these settings. -/
inductive Configured (runtime : RuntimeConfig) : RecordCodec → Prop where
  | raw : Configured runtime rawCodec
  | registry (codec : SchemaRegistryCodec)
      (framing : codec.frameRaw = runtime.schemaRegistryFrameRaw) :
      Configured runtime codec.recordCodec

variable {codec : RecordCodec}

theorem Configured.passesRaw (configured : Configured .default codec) : codec.PassesRaw := by
  cases configured with
  | raw => exact rawCodec_passesRaw
  | registry codec framing => exact SchemaRegistryCodec.passesRaw framing

structure Hop {Cache : Type} (record : GatewayRecord) (origin : ProduceCore)
    (owner : AppState Cache) (peer : Option Principal) : Prop where
  routed : ∃ addr forwarding, origin.route record = .owner addr ∧
    origin.forwarding = some forwarding ∧ forwarding.forwarder.Reaches addr owner peer
  owned : owner.core.route record = .here

namespace Hop

variable {Cache : Type} {record : GatewayRecord} {origin : ProduceCore} {owner : AppState Cache}
  {peer : Option Principal}

theorem direct (hop : Hop record origin owner peer) (caller : Principal) :
    owner.core.produce record caller = owner.core.produceLocal record := by
  simp [ProduceCore.produce, ProduceCore.produceWithAcks, ProduceCore.produceLocal, hop.owned]

theorem forwarded (hop : Hop record origin owner peer) (caller : Principal) :
    origin.produce record caller = hopResult owner peer record caller := by
  obtain ⟨addr, forwarding, route, client, reaches⟩ := hop.routed
  rw [← Forwarder.forward_of_reaches reaches]
  simp [ProduceCore.produce, ProduceCore.produceWithAcks, route, client]

end Hop

variable {core : ProduceCore}

theorem produceLocal_raw_error (passes : core.codec.PassesRaw) (raw : record.bodyStructured = none)
    {error : GatewayError} (failed : core.produceLocal record = .error error) :
    error = .unavailable ∨ (∃ source, error = .producer source) ∨
      ∃ message, error = .claim message := by
  rw [ProduceCore.produceLocal,
    ProduceCore.produceLocalWithAcks_of_written (written_of_passesRaw passes raw)] at failed
  unfold ProduceCore.write at failed
  split at failed
  · rename_i dedup key _ _
    cases answer : dedup.produce key (toProducerRecord record record.value) with
    | ok outcome => simp [answer, Except.mapError] at failed
    | error source =>
      simp only [answer, Except.mapError, Except.error.injEq] at failed
      subst failed
      cases source <;> simp [DedupError.toGatewayError]
  · unfold ProduceCore.producePlain at failed
    split at failed
    · contradiction
    · rename_i source _
      cases failed
      exact Or.inr (Or.inl ⟨source, rfl⟩)

/-- The hop keeps the class of every result a raw record can have. -/
theorem resultClass_overHop (passes : core.codec.PassesRaw) (raw : record.bodyStructured = none) :
    resultClass (overHop (core.produceLocal record)) = resultClass (core.produceLocal record) := by
  cases result : core.produceLocal record with
  | ok outcome => rfl
  | error error =>
    obtain rfl | ⟨source, rfl⟩ | ⟨message, rfl⟩ := produceLocal_raw_error passes raw result
    · rfl
    · rfl
    · rfl

/-- The endpoint takes the record as the origin sends it: the body is within the limit, a TLS
endpoint has seen a principal, and the caller may write from the unknown host. -/
structure Accepts {Cache : Type} (owner : AppState Cache) (peer : Option Principal)
    (record : GatewayRecord) (caller : Principal) : Prop where
  fits : forwardSize record caller ≤ owner.runtime.forwardMaxBody
  known : owner.tls = true → peer.isSome = true
  allowed : authorizeResource owner.authz caller unknownHost .topic record.topic .write = .allow

namespace Accepts

variable {Cache : Type} {owner : AppState Cache} {peer : Option Principal}
  {record : GatewayRecord} {caller : Principal}

theorem hopResult (accepts : Accepts owner peer record caller) :
    hopResult owner peer record caller =
      overHop (owner.core.produceLocal { record with bodyStructured := none }) := by
  have known : (owner.tls && peer.isNone) = false := by
    cases secured : owner.tls with
    | false => rfl
    | true => simpa using accepts.known secured
  simp [Forward.hopResult, Nat.not_lt.mpr accepts.fits, known, accepts.allowed]

/-- An endpoint that does not take the record makes no success of it. -/
theorem of_success
    (success : resultClass (Forward.hopResult owner peer record caller) = .success) :
    Accepts owner peer record caller := by
  unfold Forward.hopResult at success
  split at success
  · exact ResultClass.noConfusion success
  · rename_i fits
    split at success
    · exact ResultClass.noConfusion success
    · rename_i known
      split at success
      · exact ResultClass.noConfusion success
      · rename_i allowed
        refine ⟨Nat.not_lt.mp fits, ?_, allowed⟩
        intro secured
        simpa [secured, Option.isSome_iff_ne_none] using known

end Accepts

/-- A replica that owns nothing and reaches this endpoint for every partition. -/
def originOf {Cache : Type} (owner : AppState Cache) (peer : Option Principal) : ProduceCore where
  codec := rawCodec
  dedup := some
    { partitions := 1, owns := fun _ => false, produce := fun _ _ => .error .unavailable }
  forwarding := some {
    ownerOf := fun _ => some "owner:8080"
    selfAddr := "origin:8080"
    forwarder := {
      scheme := "http"
      transport := {
        post := fun _ body =>
          .answered (forwardHandler owner peer body).status
            (.received (forwardHandler owner peer body).body)
        decodeMessage := fun _ => "error decoding response body" } } }
  send _ _ := .ok (0, 0)

variable {key : String}

theorem hop_originOf (keyed : record.idempotencyKey = some key)
    (owned : owner.core.route record = .here) : Hop record (originOf owner peer) owner peer where
  routed := by
    refine ⟨"owner:8080", _, ?_, rfl, fun body => rfl⟩
    simp [originOf, ProduceCore.route, keyed]
  owned := owned

theorem produce_acceptingCore (passes : codec.PassesRaw)
    (keyed : record.idempotencyKey = some key) :
    resultClass
      (overHop ((acceptingCore codec).produceLocal { record with bodyStructured := none }))
      = .success := by
  have writes : written (acceptingCore codec).codec { record with bodyStructured := none } =
      some (record.idempotencyKey, _) := written_of_passesRaw passes rfl
  rw [ProduceCore.produceLocal, ProduceCore.produceLocalWithAcks_of_written writes, keyed]
  rfl

/-- The plain codec encodes every body, so that the accepting owner accepts every record. -/
theorem acceptingCore_rawCodec (keyed : record.idempotencyKey = some key) :
    resultClass ((acceptingCore rawCodec).produceLocal record) = .success := by
  obtain ⟨value, writes⟩ : ∃ value, written (acceptingCore rawCodec).codec record =
      some (record.idempotencyKey, toProducerRecord record value) := by
    simp only [written, acceptingCore, rawCodec]
    cases record.encodeBody <;> exact ⟨_, rfl⟩
  rw [ProduceCore.produceLocal, ProduceCore.produceLocalWithAcks_of_written writes, keyed]
  rfl

/-- With default settings, a hop shows the caller the class the owner would have shown exactly when
the body is raw and the owner's endpoint takes the record. -/
theorem hop_keeps_class_iff {Cache : Type} (record : GatewayRecord) {key : String}
    (keyed : record.idempotencyKey = some key) (caller : Principal) (authz : GatewayAuthz Cache)
    (tls : Bool) (peer : Option Principal) :
    (∀ core origin, Configured .default core.codec →
        Hop record origin { core, authz, tls, runtime := .default } peer →
        resultClass (origin.produce record caller) = resultClass (core.produce record caller)) ↔
      record.bodyStructured = none ∧
        forwardSize record caller ≤ RuntimeConfig.default.forwardMaxBody ∧
        (tls = true → peer.isSome = true) ∧
        authorizeResource authz caller unknownHost .topic record.topic .write = .allow := by
  constructor
  · intro keeps
    -- Only owners that accept everything their codec encodes are needed.
    have classes : ∀ codec, Configured .default codec →
        resultClass (hopResult { core := acceptingCore codec, authz, tls, runtime := .default }
          peer record caller) = resultClass ((acceptingCore codec).produceLocal record) := by
      intro codec configured
      have hop : Hop record
          (originOf { core := acceptingCore codec, authz, tls, runtime := .default } peer)
          { core := acceptingCore codec, authz, tls, runtime := .default } peer :=
        hop_originOf keyed rfl
      have same := keeps (acceptingCore codec) _ configured hop
      rwa [hop.forwarded, hop.direct] at same
    have accepts : Accepts { core := acceptingCore rawCodec, authz, tls, runtime := .default }
        peer record caller :=
      .of_success ((classes rawCodec .raw).trans (acceptingCore_rawCodec keyed))
    refine ⟨?_, accepts.fits, accepts.known, accepts.allowed⟩
    cases structured : record.bodyStructured with
    | none => rfl
    | some body =>
      -- With the registry down the owner would answer "retry", the hop answers "done".
      have again : Accepts
          { core := acceptingCore registryDown.recordCodec, authz, tls, runtime := .default }
          peer record caller := ⟨accepts.fits, accepts.known, accepts.allowed⟩
      obtain ⟨message, refused⟩ := registryDown_encodeBody structured
      have same := classes registryDown.recordCodec (.registry registryDown rfl)
      rw [again.hopResult, produce_acceptingCore registryDown_passesRaw keyed,
        ProduceCore.produceLocal, ProduceCore.produceLocalWithAcks] at same
      simp only [acceptingCore, refused] at same
      exact ResultClass.noConfusion same
  · rintro ⟨raw, fits, known, allowed⟩ core origin configured hop
    have accepts : Accepts { core, authz, tls, runtime := .default } peer record caller :=
      ⟨fits, known, allowed⟩
    have same : { record with bodyStructured := none } = record := by rw [← raw]
    rw [hop.forwarded, hop.direct, accepts.hopResult, same]
    exact resultClass_overHop configured.passesRaw raw

def rawOrder : GatewayRecord where
  topic := "orders"
  key := none
  value := [123, 125]
  bodyStructured := none
  headers := []
  partition := none
  timestampMs := none
  idempotencyKey := some "order-1"

/-- For a small raw record the conditions hold, so that every such hop keeps the class. -/
theorem hop_keeps_class_of_rawOrder : rawOrder.idempotencyKey = some "order-1" ∧
    ∀ core origin, Configured .default core.codec →
      Hop rawOrder origin { core, authz := allowAll, tls := false, runtime := .default } none →
      resultClass (origin.produce rawOrder anonymousPrincipal) =
        resultClass (core.produce rawOrder anonymousPrincipal) :=
  ⟨rfl, (hop_keeps_class_iff rawOrder rfl anonymousPrincipal allowAll false none).mpr
    ⟨rfl, by decide, nofun, rfl⟩⟩

/-- An order of bytes that take four characters each on the wire. -/
def bulkyOrder (count : Nat) : GatewayRecord :=
  { rawOrder with value := List.replicate count 255 }

theorem bulkyOrder_length (count : Nat) : (bulkyOrder count).value.length = count :=
  List.length_replicate

theorem bytesSize_bulkyOrder (count : Nat) : 4 * count ≤ bytesSize (bulkyOrder count).value := by
  have digits : byteSize 255 = 3 := rfl
  simp only [bulkyOrder, bytesSize, listSize, List.map_replicate, List.sum_replicate_nat,
    List.length_replicate, digits]
  omega

theorem bulkyOrder_large {count : Nat} (many : 524288 ≤ count) (caller : Principal) :
    RuntimeConfig.default.forwardMaxBody < forwardSize (bulkyOrder count) caller := by
  have value := bytesSize_bulkyOrder count
  simp only [forwardSize, RuntimeConfig.default]
  omega

theorem hop_bulkyOrder (count : Nat) :
    Hop (bulkyOrder count) (originOf plainOwner none) plainOwner none :=
  hop_originOf (Eq.refl (some "order-1")) rfl

/-- The owner would take the bulky order; its endpoint refuses it each time it is forwarded, and
the caller is told to try again. -/
theorem bulky_record_refused :
    (bulkyOrder 600000).value.length ≤ RuntimeConfig.default.produceMaxBody ∧
      Hop (bulkyOrder 600000) (originOf plainOwner none) plainOwner none ∧
      resultClass (plainOwner.core.produce (bulkyOrder 600000) anonymousPrincipal) = .success ∧
      resultClass ((originOf plainOwner none).produce (bulkyOrder 600000) anonymousPrincipal) =
        .retriable := by
  refine ⟨?_, hop_bulkyOrder 600000, ?_, ?_⟩
  · rw [bulkyOrder_length]
    decide
  · rw [(hop_bulkyOrder 600000).direct]
    exact acceptingCore_rawCodec (Eq.refl (some "order-1"))
  · have large : plainOwner.runtime.forwardMaxBody <
        forwardSize (bulkyOrder 600000) anonymousPrincipal := bulkyOrder_large (by decide) _
    rw [(hop_bulkyOrder 600000).forwarded, hopResult, if_pos large]
    rfl

/-! ## Authorization -/

/-- Two replicas with one authorizer and one ACL cache agree on every write of a caller exactly
when the caller's address is the unknown host. -/
theorem owner_authorizes_iff (caller : Principal) (host : SocketAddr) (topic : String) :
    (∀ (Cache : Type) (authz : GatewayAuthz Cache) (record : GatewayRecord)
        (request : ForwardRecord), record.topic = topic →
        authorizeResource authz caller host .topic topic .write = .allow →
        (decode (forwardBody record caller)).bind fromJson = some request →
        forwardDecision authz request = .allow) ↔ host = unknownHost := by
  constructor
  · intro agrees
    -- An ACL for this one address.
    let authz : GatewayAuthz Unit :=
      { authorizer := fun _ request => if request.host = host then .allow else .deny, cache := () }
    have decision :=
      agrees Unit authz { rawOrder with topic } _ rfl (by simp [authorizeResource, authz])
      (decode_forwardBody _ caller)
    rw [forwardDecision_fromRecord] at decision
    by_contra elsewhere
    simp [authorizeResource, authz, Ne.symm elsewhere] at decision
  · rintro rfl Cache authz record request rfl allowed decoded
    rw [decode_forwardBody, Option.some.injEq] at decoded
    rw [← decoded, forwardDecision_fromRecord]
    exact allowed

/-- A caller with a write ACL for the one address it calls from. -/
def hostScoped : GatewayAuthz SocketAddr where
  authorizer allowedHost request := if request.host = allowedHost then .allow else .deny
  cache := { ip := .v4 0x0a000005, port := 40312 }

/-- The receiving replica allows the write, the owner denies it. -/
theorem host_scoped_write_denied :
    authorizeResource hostScoped anonymousPrincipal hostScoped.cache .topic "orders" .write =
        .allow ∧
      ∃ request, (decode (forwardBody rawOrder anonymousPrincipal)).bind fromJson = some request ∧
        forwardDecision hostScoped request = .deny :=
  ⟨rfl, _, decode_forwardBody rawOrder anonymousPrincipal, rfl⟩

end KrabkaGateway.Forward
