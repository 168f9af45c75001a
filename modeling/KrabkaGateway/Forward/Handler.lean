import KrabkaGateway.Produce

/-!
# The forward endpoint

`forward_handler` of `forward.rs`, and the whole hop: what the origin gets back
when its request reaches the owner's endpoint.
-/

namespace KrabkaGateway

/-- The limits of `GatewayRuntimeConfig` that the produce and the forward path read. -/
structure RuntimeConfig where
  produceMaxBody : Nat
  forwardMaxBody : Nat
  schemaRegistryFrameRaw : Bool
  deriving DecidableEq, Repr

def RuntimeConfig.default : RuntimeConfig where
  produceMaxBody := 2 * 1024 * 1024
  forwardMaxBody := 2 * 1024 * 1024
  schemaRegistryFrameRaw := false

/-- What the endpoints of one replica share. `tls` says whether TLS is configured. -/
structure AppState (Cache : Type) where
  core : ProduceCore
  authz : GatewayAuthz Cache
  tls : Bool
  runtime : RuntimeConfig

namespace Forward

open Lib.Json

variable {Cache : Type}

structure Response where
  status : Nat
  body : ByteArray

def jsonResponse (status : Nat) (result : ForwardResult) : Response :=
  ⟨status, encode (toJson result)⟩

def refusal (message : String) (retriable : Bool) : ForwardResult where
  partition := -1
  offset := -1
  deduplicated := false
  error := some { message, retriable }

def relayedCaller (request : ForwardRecord) : Principal :=
  match request.principal with
  | none => anonymousPrincipal
  | some relayed => relayed.toPrincipal

/-- The owner's own check of the caller. It has no address to check the caller at. -/
def forwardDecision (authz : GatewayAuthz Cache) (request : ForwardRecord) :
    AuthorizationResult :=
  authz.authorizer authz.cache
    { principal := relayedCaller request, host := unknownHost, resourceType := .topic,
      resourceName := request.topic, operation := .write }

/-- The handler up to its local produce: the record it goes on with, or its answer. `peer` is the
principal extension of the request. -/
def receive (state : AppState Cache) (peer : Option Principal) (body : ByteArray) :
    Except Response GatewayRecord :=
  if state.runtime.forwardMaxBody < body.size then .error ⟨413, .empty⟩
  else
    match (decode body).bind fromJson with
    | none => .error ⟨400, .empty⟩
    | some request =>
      if state.tls && peer.isNone then
        .error (jsonResponse 403 (refusal "forward requires an authenticated mTLS peer" false))
      else
        match forwardDecision state.authz request with
        | .deny => .error (jsonResponse 403 (refusal ("Write Topic:" ++ request.topic) false))
        | .allow => .ok request.intoRecord

/-- The answer for the result of the local produce. -/
def respond : Except GatewayError RecordOutcome → Response
  | .ok outcome =>
    jsonResponse 200 { partition := outcome.partition, offset := outcome.offset,
                       deduplicated := outcome.deduplicated, error := none }
  | .error error => jsonResponse 200 (refusal error.display (error = .unavailable))

def forwardHandler (state : AppState Cache) (peer : Option Principal) (body : ByteArray) :
    Response :=
  match receive state peer body with
  | .error response => response
  | .ok record => respond (state.core.produceLocal record)

/-! ## The whole hop -/

/-- The request a forwarded record decodes to. -/
@[simp] theorem decode_forwardBody (record : GatewayRecord) (caller : Principal) :
    (decode (forwardBody record caller)).bind fromJson =
      some (ForwardRecord.fromRecord record caller) :=
  decode_encode_toJson _

@[simp] theorem relayedCaller_fromRecord (record : GatewayRecord) (caller : Principal) :
    relayedCaller (ForwardRecord.fromRecord record caller) = caller := by
  simp [relayedCaller, ForwardRecord.fromRecord]

/-- The owner checks the origin's caller, on the record's topic, at the unknown host. -/
theorem forwardDecision_fromRecord (authz : GatewayAuthz Cache) (record : GatewayRecord)
    (caller : Principal) :
    forwardDecision authz (ForwardRecord.fromRecord record caller) =
      authorizeResource authz caller unknownHost .topic record.topic .write := by
  rw [forwardDecision, relayedCaller_fromRecord]
  rfl

/-- What the endpoint decides about a record an origin forwarded. -/
theorem receive_forwardBody (state : AppState Cache) (peer : Option Principal)
    (record : GatewayRecord) (caller : Principal) :
    receive state peer (forwardBody record caller) =
      if state.runtime.forwardMaxBody < forwardSize record caller then .error ⟨413, .empty⟩
      else if state.tls && peer.isNone then
        .error (jsonResponse 403 (refusal "forward requires an authenticated mTLS peer" false))
      else
        match authorizeResource state.authz caller unknownHost .topic record.topic .write with
        | .deny => .error (jsonResponse 403 (refusal ("Write Topic:" ++ record.topic) false))
        | .allow => .ok { record with bodyStructured := none } := by
  have size : (forwardBody record caller).size = forwardSize record caller :=
    size_forwarded record caller
  simp only [receive, decode_forwardBody, size, forwardDecision_fromRecord]
  rfl

/-- A local result as the origin sees it: every error that is not retriable arrives as a text. -/
def overHop : Except GatewayError RecordOutcome → Except GatewayError RecordOutcome
  | .ok outcome => .ok outcome
  | .error .unavailable => .error .unavailable
  | .error error => .error (.forward error.display)

theorem readResponse_respond (transport : Transport)
    (result : Except GatewayError RecordOutcome) :
    readResponse transport (respond result).status (.received (respond result).body) =
      overHop result := by
  cases result with
  | ok outcome => simp [respond, jsonResponse, readResult, isSuccess, overHop]
  | error error =>
    by_cases retriable : error = .unavailable
    · simp [respond, jsonResponse, readResult, refusal, overHop, retriable]
    · have carried : overHop (.error error) = .error (.forward error.display) := by
        cases error <;> first | contradiction | rfl
      simp [respond, jsonResponse, readResult, refusal, carried, retriable]

theorem readResponse_refused (transport : Transport) (message : String) :
    readResponse transport (jsonResponse 403 (refusal message false)).status
        (.received (jsonResponse 403 (refusal message false)).body) =
      .error (.unauthorized message) := by
  simp [jsonResponse, readResult, refusal]

theorem readResponse_empty (transport : Transport) {status : Nat}
    (failure : isSuccess status = false) :
    readResponse transport status (.received .empty) = .error .unavailable := by
  simp [readResponse, decode_empty, undecodable, failure]

/-- The exchange with `addr` reaches this endpoint and comes back whole. `peer` is the principal
the endpoint sees on the origin's connection. -/
def Forwarder.Reaches (forwarder : Forwarder) (addr : String) (state : AppState Cache)
    (peer : Option Principal) : Prop :=
  ∀ body, forwarder.transport.post (forwardUrl forwarder.scheme addr) body =
    .answered (forwardHandler state peer body).status
      (.received (forwardHandler state peer body).body)

/-- What an origin gets from an endpoint, in terms of the record it sends. -/
def hopResult (state : AppState Cache) (peer : Option Principal) (record : GatewayRecord)
    (caller : Principal) : Except GatewayError RecordOutcome :=
  if state.runtime.forwardMaxBody < forwardSize record caller then .error .unavailable
  else if state.tls && peer.isNone then
    .error (.unauthorized "forward requires an authenticated mTLS peer")
  else
    match authorizeResource state.authz caller unknownHost .topic record.topic .write with
    | .deny => .error (.unauthorized ("Write Topic:" ++ record.topic))
    | .allow => overHop (state.core.produceLocal { record with bodyStructured := none })

theorem Forwarder.forward_of_reaches {forwarder : Forwarder} {addr : String}
    {state : AppState Cache} {peer : Option Principal} (reaches : forwarder.Reaches addr state peer)
    (record : GatewayRecord) (caller : Principal) :
    forwarder.forward addr record caller = hopResult state peer record caller := by
  -- One case for each answer of the endpoint, in the order it decides them.
  rw [forward, reaches]
  simp only [forwardHandler, receive_forwardBody, hopResult]
  by_cases large : state.runtime.forwardMaxBody < forwardSize record caller
  · simp only [large, if_true]
    exact readResponse_empty _ rfl
  · by_cases stranger : (state.tls && peer.isNone) = true
    · simp only [large, stranger, if_true, if_false]
      exact readResponse_refused _ _
    · simp only [large, stranger, if_false, Bool.false_eq_true]
      cases authorizeResource state.authz caller unknownHost .topic record.topic .write with
      | deny => exact readResponse_refused _ _
      | allow => exact readResponse_respond _ _

end Forward

end KrabkaGateway
