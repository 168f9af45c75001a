import KrabkaGateway.Forward.PeerAuth
import KrabkaGateway.Lib.Fallible
import KrabkaGateway.Lib.Text
import KrabkaGateway.Lib.Update

/-!
# Webhook endpoints

The webhook configuration of `webhook_config.rs`: the raw endpoints, their check
and their compiled form. The cryptographic, encoding, JSON and JSONPath libraries
are parameters. Times are nanoseconds, sizes are bytes.
-/

namespace KrabkaGateway.Webhook

open Lib

/-! ## HTTP headers -/

/-- The headers of a request in the order the map lists them, under lower-case names. -/
abbrev HeaderMap := List (String × Bytes)

def isTokenChar (char : Char) : Bool :=
  char.isAlphanum || "!#$%&'*+-.^_|~".toList.contains char || char == Char.ofNat 96

def headerName (name : String) : Option String :=
  if name.toList ≠ [] ∧ name.toList.all isTokenChar ∧ name.length ≤ 65535 then
    some (String.ofList (name.toList.map Char.toLower))
  else none

def HeaderMap.values (headers : HeaderMap) (name : String) : List Bytes :=
  (headers.filter fun header => header.1 = name).map Prod.snd

def HeaderMap.getAll (headers : HeaderMap) (name : String) : List Bytes :=
  match headerName name with
  | some canonical => headers.values canonical
  | none => []

/-- The first value of a header. -/
def HeaderMap.get (headers : HeaderMap) (name : String) : Option Bytes :=
  (headers.getAll name).head?

def toStr (value : Bytes) : Option Bytes :=
  (headerText value).map fun _ => value

def asString (text : Bytes) : String :=
  String.ofList (text.map fun byte => Char.ofNat byte.toNat)

/-! ## Libraries -/

structure Crypto where
  hmacSha256 : Bytes → Bytes → Bytes
  base64Decode : Bytes → Option Bytes
  hexDecode : Bytes → Option Bytes

/-- JSON values as the webhook code looks at them, and JSONPath queries over them. -/
structure JsonLibrary (Query Value : Type) where
  read : Bytes → Option Value
  asStr : Value → Option String
  asNumber : Value → Option String
  members : Value → Option (List (String × Value))
  parsePath : String → Except String Query
  select : Query → Value → Option (List Value)

/-! ## Endpoints -/

inductive SignatureMode where
  | standardWebhooks
  deriving DecidableEq, Repr

/-- One endpoint as it is written in the configuration file. -/
structure WebhookEndpoint where
  name : String
  targetTopic : String
  signatureMode : Option SignatureMode := none
  principal : Option String := none
  secret : Option String := none
  signatureHeader : Option String := none
  signatureEncoding : Option String := none
  signaturePrefix : Option String := none
  timestampHeader : Option String := none
  timestampTolerance : Option Int := none
  idempotencySource : Option String := none
  keySource : Option String := none
  forwardHeaders : Option (List String) := none
  maxBody : Option Int := none
  schemaSubject : Option String := none
  schemaFormat : Option String := none
  deriving DecidableEq, Repr

inductive Source (Query : Type) where
  | header (name : String)
  | jsonPath (query : Query)
  deriving DecidableEq, Repr

inductive SigEncoding where
  | hex
  | base64
  deriving DecidableEq, Repr

/-- A validated endpoint. `forwardHeaders` holds canonical names. -/
structure CompiledWebhook (Query : Type) where
  targetTopic : String
  signatureMode : Option SignatureMode
  principal : String
  secret : Option Bytes
  signatureHeader : Option String
  signatureEncoding : SigEncoding
  signaturePrefix : Option String
  timestampHeader : Option String
  timestampTolerance : Int
  idempotencySource : Option (Source Query)
  keySource : Option (Source Query)
  forwardHeaders : List String
  maxBody : Int
  schemaSubject : Option String
  schemaFormat : SchemaFormat

/-! ## Compiling -/

def bytesOf (text : String) : Bytes :=
  text.toUTF8.data.toList

def stripPrefix {α : Type} [BEq α] (front text : List α) : Option (List α) :=
  if front.isPrefixOf text then some (text.drop front.length) else none

variable {Query Value : Type}

def Source.parse (json : JsonLibrary Query Value) (spec context : String) :
    Except String (Source Query) :=
  match stripPrefix "header:".toList spec.toList with
  | some name => .ok (.header (String.ofList name))
  | none =>
    match stripPrefix "json:".toList spec.toList with
    | some path =>
      match json.parsePath (String.ofList path) with
      | .ok query => .ok (.jsonPath query)
      | .error error =>
        .error (context ++ ": invalid JSONPath " ++ debugText path ++ ": " ++
          error)
    | none => .error (context ++ ": must start with 'header:' or 'json:'")

def parseSource (json : JsonLibrary Query Value) (spec : Option String) (context : String) :
    Except String (Option (Source Query)) :=
  match spec with
  | none => .ok none
  | some spec => (Source.parse json spec context).map some

def signingKey (crypto : Crypto) (token context : String) : Except String Bytes :=
  let text := bytesOf token
  match crypto.base64Decode ((stripPrefix (bytesOf "whsec_") text).getD text) with
  | none => .error (context ++ ": invalid Standard Webhooks signing token")
  | some [] => .error (context ++ ": signing token must not be empty")
  | some key => .ok key

def compileSecret (crypto : Crypto) (endpoint : WebhookEndpoint) (context : String) :
    Except String (Option Bytes) :=
  if endpoint.signatureMode = some .standardWebhooks then
    if endpoint.signatureHeader.isSome || endpoint.signatureEncoding.isSome ||
        endpoint.signaturePrefix.isSome || endpoint.timestampHeader.isSome then
      .error (context ++ ": standard_webhooks sets signature and timestamp headers")
    else
      match endpoint.secret with
      | none => .error (context ++ ": standard_webhooks requires a signing token in secret")
      | some token => (signingKey crypto token context).map some
  else .ok (endpoint.secret.map bytesOf)

def checkSecret (endpoint : WebhookEndpoint) (context : String) : Except String Unit :=
  if endpoint.signatureMode.isNone ∧ endpoint.secret.isSome ≠ endpoint.signatureHeader.isSome then
    .error (context ++ ": `secret` and `signature_header` must be set together")
  else if endpoint.secret = some "" then .error (context ++ ": secret must not be empty")
  else .ok ()

def compileEncoding (spec : Option String) (context : String) : Except String SigEncoding :=
  match spec with
  | none => .ok .hex
  | some text =>
    if text = "hex" then .ok .hex
    else if text = "base64" then .ok .base64
    else
      .error (context ++ ": signature_encoding must be 'hex' or 'base64', got " ++
        debugText text.toList)

def compileIdempotencySource (json : JsonLibrary Query Value) (endpoint : WebhookEndpoint)
    (context : String) : Except String (Option (Source Query)) :=
  if endpoint.signatureMode.isSome ∧
      endpoint.idempotencySource.any (· ≠ "header:webhook-id") then
    .error (context ++ ": standard_webhooks uses the signed webhook-id for deduplication")
  else
    parseSource json
      (endpoint.idempotencySource.orElse fun _ =>
        endpoint.signatureMode.map fun _ => "header:webhook-id")
      (context ++ ".idempotency_source")

/-- The headers that are never forwarded. -/
def isAuthenticationHeader (endpoint : WebhookEndpoint) (name : String) : Bool :=
  ["authorization", "cookie", "x-gitlab-token", "webhook-signature"].contains name ||
    endpoint.signatureHeader.any fun signature =>
      signature.toList.map Char.toLower = name.toList.map Char.toLower

def compileForwardHeaders (endpoint : WebhookEndpoint) (context : String) :
    Except String (List String) :=
  (endpoint.forwardHeaders.getD []).mapM fun name =>
    match headerName name with
    | none => .error (context ++ ": invalid forward_headers name")
    | some canonical =>
      if isAuthenticationHeader endpoint canonical then
        .error (context ++ ": cannot forward authentication headers")
      else .ok canonical

def parseSchemaFormat (spec : Option String) (context : String) : Except String SchemaFormat :=
  match spec with
  | none => .ok .json
  | some text =>
    if text = "json" then .ok .json
    else if text = "avro" then .ok .avro
    else if text = "protobuf" then .ok .protobuf
    else
      .error (context ++ ": schema_format must be 'avro', 'json', or 'protobuf', got " ++
        debugText text.toList)

def nonNegativeTime (field : String) (value : Int) : Except String Int :=
  if 0 ≤ value then .ok value else .error (field ++ " must not be negative")

def positiveByteSize (field : String) (value : Int) : Except String Int :=
  if 0 < value then .ok value else .error (field ++ " must be greater than zero")

/-- A whole number of seconds, in nanoseconds. -/
def secs (count : Int) : Int :=
  count * 1000000000

def compileEndpoint (crypto : Crypto) (json : JsonLibrary Query Value)
    (endpoint : WebhookEndpoint) : Except String (CompiledWebhook Query) := do
  let context := "[webhooks " ++ endpoint.name ++ "]"
  let secret ← compileSecret crypto endpoint context
  checkSecret endpoint context
  let signatureEncoding ← compileEncoding endpoint.signatureEncoding context
  let idempotencySource ← compileIdempotencySource json endpoint context
  let keySource ← parseSource json endpoint.keySource (context ++ ".key_source")
  let forwardHeaders ← compileForwardHeaders endpoint context
  let schemaFormat ← parseSchemaFormat endpoint.schemaFormat context
  let timestampTolerance ←
    (nonNegativeTime "timestamp_tolerance" (endpoint.timestampTolerance.getD (secs 300))).mapError
      fun error => context ++ ": " ++ error
  let maxBody ←
    (positiveByteSize "max_body" (endpoint.maxBody.getD (1024 * 1024))).mapError
      fun error => context ++ ": " ++ error
  return {
    targetTopic := endpoint.targetTopic
    signatureMode := endpoint.signatureMode
    principal := endpoint.principal.getD ("webhook:" ++ endpoint.name)
    secret
    signatureHeader := endpoint.signatureHeader
    signatureEncoding
    signaturePrefix := endpoint.signaturePrefix
    timestampHeader := endpoint.timestampHeader
    timestampTolerance
    idempotencySource
    keySource
    forwardHeaders
    maxBody
    schemaSubject := endpoint.schemaSubject
    schemaFormat }

def compile (crypto : Crypto) (json : JsonLibrary Query Value) (endpoints : List WebhookEndpoint) :
    Except String (String → Option (CompiledWebhook Query)) :=
  endpoints.foldlM
    (fun compiled endpoint => do
      let webhook ← compileEndpoint crypto json endpoint
      return set compiled endpoint.name (some webhook))
    (fun _ => none)

/-! ## What a compiled endpoint is -/

variable {crypto : Crypto} {json : JsonLibrary Query Value} {config : CompiledWebhook Query}

/-- The entries of the table come from the endpoints of their name. -/
theorem exists_endpoint_of_compile {endpoints : List WebhookEndpoint}
    {table : String → Option (CompiledWebhook Query)}
    (compiles : compile crypto json endpoints = .ok table) {name : String}
    (found : table name = some config) :
    ∃ endpoint ∈ endpoints, endpoint.name = name ∧
      compileEndpoint crypto json endpoint = .ok config := by
  suffices general : ∀ start : String → Option (CompiledWebhook Query),
      endpoints.foldlM
        (fun compiled endpoint => do
          let webhook ← compileEndpoint crypto json endpoint
          return set compiled endpoint.name (some webhook)) start = .ok table →
      start name = some config ∨ ∃ endpoint ∈ endpoints, endpoint.name = name ∧
        compileEndpoint crypto json endpoint = .ok config by
    exact (general _ compiles).resolve_left (by simp)
  clear compiles
  induction endpoints with
  | nil =>
    intro start finished
    simp only [List.foldlM_nil, pure, Except.pure, Except.ok.injEq] at finished
    exact Or.inl (finished ▸ found)
  | cons first rest ih =>
    intro start finished
    rw [List.foldlM_cons] at finished
    cases compiled : compileEndpoint crypto json first with
    | error message => simp [compiled, bind, Except.bind] at finished
    | ok webhook =>
      simp only [compiled, bind, Except.bind, pure, Except.pure] at finished
      obtain earlier | ⟨endpoint, member, named, built⟩ := ih _ finished
      · by_cases same : name = first.name
        · rw [same, set_self, Option.some.injEq] at earlier
          exact Or.inr ⟨first, List.mem_cons_self, same.symm, earlier ▸ compiled⟩
        · rw [set_ne _ _ same] at earlier
          exact Or.inl earlier
      · exact Or.inr ⟨endpoint, List.mem_cons_of_mem _ member, named, built⟩

theorem parse_webhookId (json : JsonLibrary Query Value) (context : String) :
    Source.parse json "header:webhook-id" context = .ok (.header "webhook-id") := by
  rfl

variable {endpoint : WebhookEndpoint} {context : String}

theorem idempotencySource_of_standard {source : Option (Source Query)}
    (standard : endpoint.signatureMode = some .standardWebhooks)
    (compiles : compileIdempotencySource json endpoint context = .ok source) :
    source = some (.header "webhook-id") := by
  unfold compileIdempotencySource at compiles
  split at compiles
  · contradiction
  · rename_i allowed
    have spec : (endpoint.idempotencySource.orElse fun _ =>
        endpoint.signatureMode.map fun _ => "header:webhook-id") = some "header:webhook-id" := by
      cases given : endpoint.idempotencySource with
      | none => simp [standard]
      | some text =>
        simp only [standard, given, Option.isSome_some, Option.any_some, true_and,
          decide_eq_true_eq, not_not] at allowed
        simp [allowed]
    rw [spec, parseSource, parse_webhookId] at compiles
    simpa [Except.map, eq_comm] using compiles

theorem headers_of_standard {secret : Option Bytes}
    (standard : endpoint.signatureMode = some .standardWebhooks)
    (compiles : compileSecret crypto endpoint context = .ok secret) :
    endpoint.signatureHeader = none ∧ endpoint.timestampHeader = none := by
  simp only [compileSecret, standard, if_true] at compiles
  split at compiles
  · contradiction
  · rename_i unset
    simp only [Bool.or_eq_true, not_or, Option.not_isSome_iff_eq_none] at unset
    exact ⟨unset.1.1.1, unset.2⟩

structure CompiledFrom (crypto : Crypto) (json : JsonLibrary Query Value)
    (endpoint : WebhookEndpoint) (config : CompiledWebhook Query) : Prop where
  mode : config.signatureMode = endpoint.signatureMode
  signatureHeader : config.signatureHeader = endpoint.signatureHeader
  timestampHeader : config.timestampHeader = endpoint.timestampHeader
  secret : ∃ context, compileSecret crypto endpoint context = .ok config.secret
  checked : ∃ context, checkSecret endpoint context = .ok ()
  idempotencySource : ∃ context,
    compileIdempotencySource json endpoint context = .ok config.idempotencySource

theorem compiledFrom_of_compileEndpoint
    (compiles : compileEndpoint crypto json endpoint = .ok config) :
    CompiledFrom crypto json endpoint config := by
  unfold compileEndpoint at compiles
  obtain ⟨secret, signed, compiles⟩ := ok_of_bind compiles
  obtain ⟨_, checked, compiles⟩ := ok_of_bind compiles
  obtain ⟨_, _, compiles⟩ := ok_of_bind compiles
  obtain ⟨source, chosen, compiles⟩ := ok_of_bind compiles
  obtain ⟨_, _, compiles⟩ := ok_of_bind compiles
  obtain ⟨_, _, compiles⟩ := ok_of_bind compiles
  obtain ⟨_, _, compiles⟩ := ok_of_bind compiles
  obtain ⟨_, _, compiles⟩ := ok_of_bind compiles
  obtain ⟨_, _, compiles⟩ := ok_of_bind compiles
  obtain rfl := Except.ok.inj compiles
  exact ⟨rfl, rfl, rfl, ⟨_, signed⟩, ⟨_, checked⟩, ⟨_, chosen⟩⟩

namespace CompiledFrom

variable {crypto : Crypto} {json : JsonLibrary Query Value} {endpoint : WebhookEndpoint}
  {config : CompiledWebhook Query}

/-- A Standard Webhooks endpoint has no other signature check and one idempotency source. -/
theorem of_standard (compiled : CompiledFrom crypto json endpoint config)
    (standard : config.signatureMode = some .standardWebhooks) :
    config.signatureHeader = none ∧ config.idempotencySource = some (.header "webhook-id") := by
  rw [compiled.mode] at standard
  obtain ⟨_, signed⟩ := compiled.secret
  obtain ⟨_, chosen⟩ := compiled.idempotencySource
  rw [compiled.signatureHeader]
  exact ⟨(headers_of_standard standard signed).1, idempotencySource_of_standard standard chosen⟩

/-- An endpoint with a timestamp header is a generic one, and its secret goes with a signature
header. -/
theorem of_timestampHeader (compiled : CompiledFrom crypto json endpoint config)
    (guarded : config.timestampHeader.isSome) (secured : config.secret.isSome) :
    config.signatureMode = none ∧ config.signatureHeader.isSome := by
  rw [compiled.timestampHeader] at guarded
  obtain ⟨_, signed⟩ := compiled.secret
  obtain ⟨_, checked⟩ := compiled.checked
  have generic : endpoint.signatureMode = none := by
    cases mode : endpoint.signatureMode with
    | none => rfl
    | some standard =>
      rw [(headers_of_standard mode signed).2] at guarded
      contradiction
  have given : endpoint.secret.isSome := by
    simp only [compileSecret, generic, reduceCtorEq, if_false, Except.ok.injEq] at signed
    simpa [← signed] using secured
  rw [compiled.mode, compiled.signatureHeader]
  refine ⟨generic, ?_⟩
  unfold checkSecret at checked
  split at checked
  · contradiction
  · rename_i together
    simp only [generic, given, Option.isNone_none, true_and, ne_eq, not_not] at together
    exact together.symm

end CompiledFrom

end KrabkaGateway.Webhook
