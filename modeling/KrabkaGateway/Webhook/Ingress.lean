import KrabkaGateway.Webhook.CloudEvents
import KrabkaGateway.Webhook.Standard

/-!
# The named webhook endpoint

`webhook_handler` of `webhook.rs` up to the record it produces: authentication, the
sources of the idempotency key and the record key, the record. An error is an HTTP
status.
-/

namespace KrabkaGateway.Webhook

variable {Query Value : Type}

/-- A request to an endpoint. `intact` says whether the body can be read to its end, `late` whether
that takes longer than the handler waits. -/
structure Request where
  headers : HeaderMap
  body : Bytes
  intact : Bool
  late : Bool

/-! ## Authentication -/

def collectBody (config : CompiledWebhook Query) (request : Request) : Except Nat Bytes :=
  if config.signatureMode = some .standardWebhooks ∧ request.late then .error 408
  else if request.intact ∧ (request.body.length : Int) ≤ config.maxBody then .ok request.body
  else .error 413

def checkStandard (crypto : Crypto) (config : CompiledWebhook Query) (hasDedup : Bool)
    (headers : HeaderMap) (body : Bytes) (now : Int64) : Except Nat Unit :=
  if config.signatureMode = some .standardWebhooks then
    if (authenticate crypto config headers body now).isNone then .error 401
    else if hasDedup then .ok ()
    else .error 503
  else .ok ()

def age (now : Int64) (timestamp : Int) : Int :=
  secs (min (skew now timestamp) (2 ^ 63 - 1))

/-- The replay guard of a generic endpoint. -/
def checkTimestamp (config : CompiledWebhook Query) (headers : HeaderMap) (now : Int64) :
    Except Nat Unit :=
  match config.timestampHeader with
  | none => .ok ()
  | some name =>
    match headers.get name >>= toStr with
    | none => .error 401
    | some text =>
      match parseI64 text with
      | none => .error 401
      | some timestamp =>
        if age now timestamp > config.timestampTolerance then .error 401 else .ok ()

def verifySignature (crypto : Crypto) (secret body provided : Bytes) (encoding : SigEncoding)
    (front : Option String) : Bool :=
  let text :=
    match front with
    | some front => stripPrefix (bytesOf front) provided
    | none => some provided
  match text with
  | none => false
  | some text =>
    let decoded :=
      match encoding with
      | .hex => crypto.hexDecode text
      | .base64 => crypto.base64Decode text
    match decoded with
    | none => false
    | some decoded => decoded = crypto.hmacSha256 secret body

def checkSignature (crypto : Crypto) (config : CompiledWebhook Query) (headers : HeaderMap)
    (body : Bytes) (now : Int64) : Except Nat Unit :=
  match config.signatureHeader with
  | none => .ok ()
  | some name =>
    match headers.get name >>= toStr with
    | none => .error 401
    | some provided =>
      match checkTimestamp config headers now with
      | .error status => .error status
      | .ok () =>
        if verifySignature crypto (config.secret.getD []) body provided
            config.signatureEncoding config.signaturePrefix then .ok ()
        else .error 401

/-! ## The record -/

def extractSource (json : JsonLibrary Query Value) (source : Source Query) (headers : HeaderMap)
    (bodyJson : Option Value) : Option String :=
  match source with
  | .header name => (headers.get name >>= toStr).map asString
  | .jsonPath query => do
      let value ← bodyJson
      let selected ← json.select query value
      selected.findSome? fun value =>
        match json.asStr value with
        | some text => if text = "" then none else some text
        | none => json.asNumber value

/-- A source that is configured has to yield something. -/
def extractKey (json : JsonLibrary Query Value) (source : Option (Source Query))
    (headers : HeaderMap) (bodyJson : Option Value) : Except Nat (Option String) :=
  match source with
  | none => .ok none
  | some source =>
    match extractSource json source headers bodyJson with
    | some key => .ok (some key)
    | none => .error 400

def Source.isJson : Source Query → Bool
  | .jsonPath _ => true
  | .header _ => false

def needsJson (config : CompiledWebhook Query) : Bool :=
  config.idempotencySource.any Source.isJson || config.keySource.any Source.isJson

/-- The headers a Standard Webhooks record always carries, unless they are forwarded anyway. -/
def signedHeaders (config : CompiledWebhook Query) (headers : HeaderMap) :
    List (String × Option Bytes) :=
  if config.signatureMode.isSome then
    (["webhook-id", "webhook-timestamp"].filter fun name =>
      !config.forwardHeaders.contains name).map
      fun name => (name, headers.get name)
  else []

def forwardedHeaders (config : CompiledWebhook Query) (headers : HeaderMap) :
    List (String × Option Bytes) :=
  config.forwardHeaders.flatMap fun name =>
    (headers.values name).map fun value => (name, some value)

def translate (json : JsonLibrary Query Value) (config : CompiledWebhook Query)
    (headers : HeaderMap) (body : Bytes) : Except Nat TranslatedIngress :=
  -- Content-Type and ce-* are not signed, so a signed request is never read as an event.
  if config.signatureMode.isSome then .ok { headers := [], value := body, isCloudEvent := false }
  else translateCloudeventIngress json headers body

def makeRecord (config : CompiledWebhook Query) (headers : HeaderMap)
    (translated : TranslatedIngress) (idempotencyKey key : Option String) : GatewayRecord where
  topic := config.targetTopic
  key := key.map bytesOf
  value := translated.value
  bodyStructured :=
    if translated.isCloudEvent then none
    else
      config.schemaSubject.map fun subject =>
        (translated.value, { subject := some subject, id := none, format := config.schemaFormat })
  headers := translated.headers ++ forwardedHeaders config headers ++ signedHeaders config headers
  partition := none
  timestampMs := none
  idempotencyKey := idempotencyKey

def ingest (crypto : Crypto) (json : JsonLibrary Query Value) (config : CompiledWebhook Query)
    (hasDedup : Bool) (request : Request) (now : Int64) : Except Nat GatewayRecord := do
  let body ← collectBody config request
  checkStandard crypto config hasDedup request.headers body now
  checkSignature crypto config request.headers body now
  let bodyJson := if needsJson config then json.read body else none
  let idempotencyKey ← extractKey json config.idempotencySource request.headers bodyJson
  let key ← extractKey json config.keySource request.headers bodyJson
  let translated ← translate json config request.headers body
  return makeRecord config request.headers translated idempotencyKey key

end KrabkaGateway.Webhook
