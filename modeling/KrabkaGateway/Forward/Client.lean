import KrabkaGateway.Forward.Wire

/-!
# The forwarding client

`Forwarder::forward` of `forward.rs`. The HTTP client below it is a parameter that
says how each exchange went.
-/

namespace KrabkaGateway.Forward

open Lib.Json

/-- How reading the body of a response went. -/
inductive BodyRead where
  | received (body : ByteArray)
  | timedOut
  | failed (message : String)

/-- How sending a request went. -/
inductive Exchange where
  | sendFailed
  | answered (status : Nat) (body : BodyRead)

/-- The HTTP client. `decodeMessage` is its report on a body it cannot decode. -/
structure Transport where
  post : String → ByteArray → Exchange
  decodeMessage : ByteArray → String

structure Forwarder where
  scheme : String
  transport : Transport

def isSuccess (status : Nat) : Bool :=
  200 ≤ status && status < 300

/-- An undecodable body is fatal on a success status and otherwise taken for a transient
transport failure. -/
def undecodable (status : Nat) (message : String) : GatewayError :=
  if isSuccess status then .forward ("decode forward result: " ++ message) else .unavailable

/-- The result the origin makes of the owner's decoded answer. -/
def readResult (status : Nat) (result : ForwardResult) : Except GatewayError RecordOutcome :=
  match result.error with
  | none =>
    if isSuccess status then
      .ok { partition := result.partition, offset := result.offset,
            deduplicated := result.deduplicated }
    else .error .unavailable
  | some error =>
    if error.retriable then .error .unavailable
    else if status = 403 then .error (.unauthorized error.message)
    else .error (.forward error.message)

def readResponse (transport : Transport) (status : Nat) :
    BodyRead → Except GatewayError RecordOutcome
  | .received body =>
    match (decode body).bind fromJson with
    | some result => readResult status result
    | none => .error (undecodable status (transport.decodeMessage body))
  | .timedOut => .error .unavailable
  | .failed message => .error (undecodable status message)

def forwardUrl (scheme ownerAddr : String) : String :=
  scheme ++ "://" ++ ownerAddr ++ "/internal/v1/forward"

def forwardBody (record : GatewayRecord) (caller : Principal) : ByteArray :=
  encode (toJson (ForwardRecord.fromRecord record caller))

def Forwarder.forward (forwarder : Forwarder) (ownerAddr : String) (record : GatewayRecord)
    (caller : Principal) : Except GatewayError RecordOutcome :=
  match forwarder.transport.post (forwardUrl forwarder.scheme ownerAddr)
      (forwardBody record caller) with
  | .sendFailed => .error .unavailable
  | .answered status body => readResponse forwarder.transport status body

@[simp] theorem readResponse_encode (transport : Transport) (status : Nat)
    (result : ForwardResult) :
    readResponse transport status (.received (encode (toJson result))) =
      readResult status result := by
  simp [readResponse]

end KrabkaGateway.Forward
