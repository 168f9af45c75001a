import KrabkaGateway.Webhook.Ingress

/-!
# What a signature protects

A generic endpoint checks a timestamp that its signature does not cover, so the
timestamp of a replayed request is whatever the sender writes. A Standard Webhooks
endpoint builds its record from signed parts only, apart from the headers it is
configured to read.
-/

namespace KrabkaGateway.Webhook

open Lib

variable {Query Value : Type}

/-! ## Requests that are taken in -/

variable {config : CompiledWebhook Query} {request : Request} {body : Bytes}

theorem eq_of_collectBody (collected : collectBody config request = .ok body) :
    body = request.body := by
  unfold collectBody at collected
  split at collected
  · contradiction
  · split at collected
    · exact (Except.ok.inj collected).symm
    · contradiction

/-- The JSON body of a request, where some source looks at it. -/
def bodyJson (json : JsonLibrary Query Value) (config : CompiledWebhook Query) (body : Bytes) :
    Option Value :=
  if needsJson config then json.read body else none

structure Ingested (crypto : Crypto) (json : JsonLibrary Query Value)
    (config : CompiledWebhook Query) (hasDedup : Bool) (request : Request) (now : Int64)
    (record : GatewayRecord) : Prop where
  collected : collectBody config request = .ok request.body
  standard : checkStandard crypto config hasDedup request.headers request.body now = .ok ()
  signature : checkSignature crypto config request.headers request.body now = .ok ()
  built : ∃ idempotencyKey key translated,
    extractKey json config.idempotencySource request.headers
      (bodyJson json config request.body) = .ok idempotencyKey ∧
    extractKey json config.keySource request.headers
      (bodyJson json config request.body) = .ok key ∧
    translate json config request.headers request.body = .ok translated ∧
    record = makeRecord config request.headers translated idempotencyKey key

variable {crypto : Crypto} {json : JsonLibrary Query Value} {hasDedup : Bool} {now : Int64}

theorem ingested_of_ingest {record : GatewayRecord}
    (built : ingest crypto json config hasDedup request now = .ok record) :
    Ingested crypto json config hasDedup request now record := by
  unfold ingest at built
  obtain ⟨body, collected, built⟩ := ok_of_bind built
  obtain rfl := eq_of_collectBody collected
  obtain ⟨_, standard, built⟩ := ok_of_bind built
  obtain ⟨_, signature, built⟩ := ok_of_bind built
  obtain ⟨idempotencyKey, chosen, built⟩ := ok_of_bind built
  obtain ⟨key, keyed, built⟩ := ok_of_bind built
  obtain ⟨translated, translates, built⟩ := ok_of_bind built
  exact ⟨collected, standard, signature, idempotencyKey, key, translated, chosen, keyed, translates,
    (Except.ok.inj built).symm⟩

/-! ## The replay guard of generic endpoints -/

/-- The timestamp of a request is missing, unreadable or too far from the clock. -/
def Stale (config : CompiledWebhook Query) (name : String) (headers : HeaderMap) (now : Int64) :
    Prop :=
  ∀ text timestamp, headers.get name >>= toStr = some text → parseI64 text = some timestamp →
    config.timestampTolerance < age now timestamp

variable {name : String}

/-- The replay guard looks at the timestamp header and the clock, at nothing else. -/
theorem checkTimestamp_cases (guarded : config.timestampHeader = some name) (headers : HeaderMap)
    (now : Int64) :
    (checkTimestamp config headers now = .error 401 ∧ Stale config name headers now) ∨
      (checkTimestamp config headers now = .ok () ∧ ¬ Stale config name headers now) := by
  simp only [checkTimestamp, guarded]
  cases carried : headers.get name >>= toStr with
  | none => exact Or.inl ⟨rfl, by simp [Stale, carried]⟩
  | some text =>
    cases parsed : parseI64 text with
    | none =>
      refine Or.inl ⟨by simp only [parsed], ?_⟩
      rintro other timestamp found reads
      obtain rfl := Option.some.inj (carried.symm.trans found)
      simp [parsed] at reads
    | some timestamp =>
      by_cases old : age now timestamp > config.timestampTolerance
      · refine Or.inl ⟨by simp only [parsed, if_pos old], ?_⟩
        rintro other read found reads
        obtain rfl := Option.some.inj (carried.symm.trans found)
        obtain rfl := Option.some.inj (parsed.symm.trans reads)
        exact old
      · exact Or.inr ⟨by simp only [parsed, if_neg old],
          fun stale => old (stale text timestamp carried parsed)⟩

variable {headers : HeaderMap}

/-- The part of a generic endpoint's check that a captured request has passed once and for all. -/
theorem verifySignature_of_checkSignature (signed : config.signatureHeader = some name)
    (passed : checkSignature crypto config headers body now = .ok ()) :
    ∃ provided, headers.get name >>= toStr = some provided ∧
      verifySignature crypto (config.secret.getD []) body provided config.signatureEncoding
        config.signaturePrefix = true := by
  simp only [checkSignature, signed] at passed
  split at passed
  · contradiction
  · rename_i provided carried
    split at passed
    · contradiction
    · split at passed
      · rename_i valid
        exact ⟨provided, carried, valid⟩
      · contradiction

/-- With a captured body and signature only the timestamp is left to check. -/
theorem checkSignature_of_captured {provided : Bytes} (now : Int64)
    (signed : config.signatureHeader = some name)
    (carried : headers.get name >>= toStr = some provided)
    (valid : verifySignature crypto (config.secret.getD []) body provided config.signatureEncoding
      config.signaturePrefix = true) :
    checkSignature crypto config headers body now = checkTimestamp config headers now := by
  simp only [checkSignature, signed, carried, valid, if_true]
  split <;> simp_all

theorem extractKey_ne_unauthorized (json : JsonLibrary Query Value)
    (source : Option (Source Query)) (headers : HeaderMap) (value : Option Value) :
    extractKey json source headers value ≠ .error 401 := by
  unfold extractKey
  split
  · simp
  · split <;> simp

theorem translate_ne_unauthorized (json : JsonLibrary Query Value) (config : CompiledWebhook Query)
    (headers : HeaderMap) (body : Bytes) :
    translate json config headers body ≠ .error 401 := by
  unfold translate
  split
  · simp
  · unfold translateCloudeventIngress
    dsimp only
    generalize detectContentMode _ _ = mode
    cases mode with
    | batch | notCloudEvent => simp
    | binary | structured =>
      dsimp only
      repeat' split
      all_goals simp

theorem ingest_eq_unauthorized_iff (generic : config.signatureMode = none)
    (collected : collectBody config request = .ok request.body) :
    ingest crypto json config hasDedup request now = .error 401 ↔
      checkSignature crypto config request.headers request.body now = .error 401 := by
  have standard : checkStandard crypto config hasDedup request.headers request.body now =
      .ok () := by
    simp [checkStandard, generic]
  simp only [ingest, collected, standard, bind, Except.bind]
  cases checkSignature crypto config request.headers request.body now with
  | error status => simp
  | ok passed =>
    simp only [reduceCtorEq, iff_false]
    intro refused
    split at refused
    · rename_i status failed
      rw [Except.error.inj refused] at failed
      exact extractKey_ne_unauthorized _ _ _ _ failed
    · split at refused
      · rename_i status failed
        rw [Except.error.inj refused] at failed
        exact extractKey_ne_unauthorized _ _ _ _ failed
      · split at refused
        · rename_i status failed
          rw [Except.error.inj refused] at failed
          exact translate_ne_unauthorized _ _ _ _ failed
        · contradiction

/-- A captured body and signature are refused as unauthenticated exactly when the timestamp that
comes with them is stale. -/
theorem replay_refused_iff_stale {crypto : Crypto} {json : JsonLibrary Query Value}
    {endpoints : List WebhookEndpoint} {table : String → Option (CompiledWebhook Query)}
    (compiles : compile crypto json endpoints = .ok table) {name : String}
    {config : CompiledWebhook Query} (found : table name = some config)
    (secured : config.secret.isSome) {timestampName : String}
    (guarded : config.timestampHeader = some timestampName) {hasDedup : Bool}
    {original replay : Request} {before now : Int64} {record : GatewayRecord}
    (accepted : ingest crypto json config hasDedup original before = .ok record)
    (sameBody : replay.body = original.body)
    (sameSignature : ∀ signatureName, config.signatureHeader = some signatureName →
      replay.headers.get signatureName = original.headers.get signatureName)
    (whole : replay.intact = true) :
    ingest crypto json config hasDedup replay now = .error 401 ↔
      Stale config timestampName replay.headers now := by
  obtain ⟨endpoint, _, _, compiled⟩ := exists_endpoint_of_compile compiles found
  obtain ⟨generic, signs⟩ :=
    (compiledFrom_of_compileEndpoint compiled).of_timestampHeader (by simp [guarded]) secured
  obtain ⟨signatureName, signed⟩ := Option.isSome_iff_exists.mp signs
  have ingested := ingested_of_ingest accepted
  obtain ⟨provided, carried, valid⟩ :=
    verifySignature_of_checkSignature signed ingested.signature
  have fits : (original.body.length : Int) ≤ config.maxBody := by
    have collected := ingested.collected
    simp only [collectBody, generic, reduceCtorEq, false_and, if_false] at collected
    split at collected
    · rename_i read
      exact read.2
    · contradiction
  have collected : collectBody config replay = .ok replay.body := by
    simp [collectBody, generic, whole, sameBody, fits]
  rw [ingest_eq_unauthorized_iff generic collected, sameBody,
    checkSignature_of_captured now signed ((sameSignature _ signed).symm ▸ carried) valid]
  obtain ⟨refused, stale⟩ | ⟨passed, fresh⟩ := checkTimestamp_cases guarded replay.headers now
  · simp [refused, stale]
  · simp [passed, fresh]

def noJson : JsonLibrary Empty Unit where
  read _ := none
  asStr _ := none
  asNumber _ := none
  members _ := none
  parsePath _ := .error "no queries"
  select query _ := query.elim

/-- A generic endpoint with a replay guard of five minutes. -/
def guardedEndpoint : WebhookEndpoint where
  name := "orders"
  targetTopic := "orders"
  secret := some "k"
  signatureHeader := some "x-signature"
  signatureEncoding := some "base64"
  timestampHeader := some "x-timestamp"

def guardedConfig : CompiledWebhook Empty where
  targetTopic := "orders"
  signatureMode := none
  principal := "webhook:orders"
  secret := some (bytesOf "k")
  signatureHeader := some "x-signature"
  signatureEncoding := .base64
  signaturePrefix := none
  timestampHeader := some "x-timestamp"
  timestampTolerance := secs 300
  idempotencySource := none
  keySource := none
  forwardHeaders := []
  maxBody := 1024 * 1024
  schemaSubject := none
  schemaFormat := .json

theorem compile_guardedEndpoint :
    compile plainCrypto noJson [guardedEndpoint] =
      .ok (Lib.set (fun _ => none) "orders" (some guardedConfig)) := by
  rfl

/-- The order `b`, signed, with a timestamp of the sender's choice. -/
def timestampedOrder (timestamp : String) : Request where
  headers := [("x-signature", bytesOf "kb"), ("x-timestamp", bytesOf timestamp)]
  body := bytesOf "b"
  intact := true
  late := false

def orderRecord : GatewayRecord where
  topic := "orders"
  key := none
  value := bytesOf "b"
  bodyStructured := none
  headers := []
  partition := none
  timestampMs := none
  idempotencyKey := none

theorem replay_with_old_timestamp_refused :
    ingest plainCrypto noJson guardedConfig false (timestampedOrder "1000") 9000 = .error 401 ↔
      Stale guardedConfig "x-timestamp" (timestampedOrder "1000").headers 9000 :=
  replay_refused_iff_stale compile_guardedEndpoint (Lib.set_self _ "orders" _) rfl rfl
    (show ingest plainCrypto noJson guardedConfig false (timestampedOrder "1000") 1000 =
      .ok orderRecord from by decide)
    rfl (fun _ _ => rfl) rfl

/-- The captured order is accepted again much later, with a timestamp that nobody signed. -/
theorem replay_with_new_timestamp_accepted :
    compile plainCrypto noJson [guardedEndpoint] =
      .ok (Lib.set (fun _ => none) "orders" (some guardedConfig)) ∧
    ingest plainCrypto noJson guardedConfig false (timestampedOrder "1000") 1000 =
      .ok orderRecord ∧
    guardedConfig.timestampTolerance < secs (9000 - 1000) ∧
    ingest plainCrypto noJson guardedConfig false (timestampedOrder "9000") 9000 =
      .ok orderRecord :=
  ⟨compile_guardedEndpoint, by decide, by decide, by decide⟩

/-! ## The records of Standard Webhooks -/

variable {text : Bytes}

theorem getAll_of_header (single : header headers name = some text) :
    headers.getAll name = [text] ∧ toStr text = some text := by
  unfold header at single
  split at single
  · contradiction
  · rename_i value others listed
    simp only [Option.bind_eq_bind, Option.bind_eq_some_iff, Option.ite_none_right_eq_some,
      Option.some.injEq] at single
    obtain ⟨read, readable, ⟨_, rfl⟩, rfl⟩ := single
    have same : value = read := by
      simp only [toStr, Option.map_eq_some_iff] at readable
      exact readable.choose_spec.2
    subst same
    exact ⟨listed, readable⟩

theorem get_of_header (single : header headers name = some text) :
    headers.get name = some text := by
  rw [HeaderMap.get, (getAll_of_header single).1]
  rfl

theorem headerName_webhookId : headerName "webhook-id" = some "webhook-id" := by
  decide

theorem headerName_webhookTimestamp :
    headerName "webhook-timestamp" = some "webhook-timestamp" := by
  decide

theorem values_of_header (canonical : headerName name = some name)
    (single : header headers name = some text) : headers.values name = [text] := by
  have listed := (getAll_of_header single).1
  rwa [HeaderMap.getAll, canonical] at listed

/-- A signed request has its id as its idempotency key. -/
theorem idempotencyKey_of_standard {value : Option Value} {id : Bytes} {key : Option String}
    (single : header headers "webhook-id" = some id)
    (extracts : extractKey json (some (.header "webhook-id")) headers value = .ok key) :
    key = some (asString id) := by
  have found : extractSource json (.header "webhook-id") headers value = some (asString id) := by
    simp [extractSource, get_of_header single, (getAll_of_header single).2]
  simp only [extractKey, found, Except.ok.injEq] at extracts
  exact extracts.symm

theorem extractKey_congr {source : Option (Source Query)}
    (notHeader : ∀ name, source ≠ some (.header name)) (headers headers' : HeaderMap)
    (value : Option Value) :
    extractKey json source headers value = extractKey json source headers' value := by
  cases source with
  | none => rfl
  | some source =>
    cases source with
    | header name => exact absurd rfl (notHeader name)
    | jsonPath query => rfl

/-- The forwarded headers of one name come from the request's headers of that name. -/
theorem filter_forwardedHeaders (config : CompiledWebhook Query) (headers : HeaderMap)
    (name : String) :
    (forwardedHeaders config headers).filter (fun entry => entry.1 = name) =
      config.forwardHeaders.flatMap fun forwarded =>
        if forwarded = name then (headers.values name).map fun value => (name, some value)
        else [] := by
  unfold forwardedHeaders
  induction config.forwardHeaders with
  | nil => rfl
  | cons forwarded rest ih =>
    rw [List.flatMap_cons, List.filter_append, ih, List.flatMap_cons]
    congr 1
    by_cases same : forwarded = name
    · subst same
      simp [List.filter_map, Function.comp_def]
    · simp [List.filter_map, Function.comp_def, same]

theorem filter_forwardedHeaders_of_notMem (kept : name ∉ config.forwardHeaders)
    (headers : HeaderMap) :
    (forwardedHeaders config headers).filter (fun entry => entry.1 = name) = [] := by
  rw [filter_forwardedHeaders, List.flatMap_eq_nil_iff]
  intro forwarded member
  rw [if_neg]
  rintro rfl
  exact kept member

theorem signedHeaders_congr {headers' : HeaderMap}
    (ids : headers.get "webhook-id" = headers'.get "webhook-id")
    (timestamps : headers.get "webhook-timestamp" = headers'.get "webhook-timestamp") :
    signedHeaders config headers = signedHeaders config headers' := by
  unfold signedHeaders
  split
  · apply List.map_congr_left
    intro name member
    have cases := (List.mem_filter.mp member).1
    simp only [List.mem_cons, List.not_mem_nil, or_false] at cases
    obtain rfl | rfl := cases
    · rw [ids]
    · rw [timestamps]
  · rfl

/-- Accepted requests that agree on their signed parts agree on everything in their records that
the endpoint is not configured to take from other headers. -/
theorem unsigned_headers_do_not_matter {crypto : Crypto} {json : JsonLibrary Query Value}
    {endpoints : List WebhookEndpoint} {table : String → Option (CompiledWebhook Query)}
    (compiles : compile crypto json endpoints = .ok table) {name : String}
    {config : CompiledWebhook Query} (found : table name = some config)
    (standard : config.signatureMode = some .standardWebhooks) {hasDedup hasDedup' : Bool}
    {request request' : Request} {now now' : Int64} {record record' : GatewayRecord}
    (built : ingest crypto json config hasDedup request now = .ok record)
    (built' : ingest crypto json config hasDedup' request' now' = .ok record')
    (sameId : header request.headers "webhook-id" = header request'.headers "webhook-id")
    (sameTimestamp : header request.headers "webhook-timestamp" =
      header request'.headers "webhook-timestamp")
    (sameBody : request.body = request'.body) :
    record.topic = record'.topic ∧ record.value = record'.value ∧
      record.bodyStructured = record'.bodyStructured ∧
      record.idempotencyKey = record'.idempotencyKey ∧
      record.idempotencyKey = (header request.headers "webhook-id").map asString ∧
      ((∀ source, config.keySource ≠ some (.header source)) → record.key = record'.key) ∧
      ∀ header, header ∉ config.forwardHeaders ∨ header = "webhook-id" ∨
          header = "webhook-timestamp" →
        record.headers.filter (fun entry => entry.1 = header) =
          record'.headers.filter (fun entry => entry.1 = header) := by
  obtain ⟨endpoint, _, _, compiled⟩ := exists_endpoint_of_compile compiles found
  obtain ⟨_, source⟩ := (compiledFrom_of_compileEndpoint compiled).of_standard standard
  have ingested := ingested_of_ingest built
  have ingested' := ingested_of_ingest built'
  obtain ⟨id, timestamp, authentic⟩ : ∃ id timestamp,
      authenticate crypto config request.headers request.body now = some (id, timestamp) := by
    have passed := ingested.standard
    simp only [checkStandard, standard, if_true] at passed
    split at passed
    · contradiction
    · rename_i accepted
      obtain ⟨⟨id, timestamp⟩, accepts⟩ := Option.ne_none_iff_exists'.mp (by simpa using accepted)
      exact ⟨id, timestamp, accepts⟩
  have idHeader := (authentic_of_authenticate authentic).idHeader
  have timestampHeader := (authentic_of_authenticate authentic).timestampHeader
  have idHeader' := sameId ▸ idHeader
  have timestampHeader' := sameTimestamp ▸ timestampHeader
  obtain ⟨chosen, key, translated, extracts, keyed, translates, rfl⟩ := ingested.built
  obtain ⟨chosen', key', translated', extracts', keyed', translates', rfl⟩ := ingested'.built
  have event : translated = { headers := [], value := request.body, isCloudEvent := false } := by
    simpa [translate, standard, eq_comm] using translates
  have event' : translated' = { headers := [], value := request.body, isCloudEvent := false } := by
    simpa [translate, standard, sameBody, eq_comm] using translates'
  subst event event'
  rw [source] at extracts extracts'
  obtain rfl := idempotencyKey_of_standard idHeader extracts
  obtain rfl := idempotencyKey_of_standard idHeader' extracts'
  refine ⟨rfl, rfl, rfl, rfl, by rw [idHeader]; rfl, ?_, ?_⟩
  · intro notHeader
    rw [extractKey_congr notHeader request.headers request'.headers, sameBody, keyed',
      Except.ok.injEq] at keyed
    simp [makeRecord, keyed]
  · intro header unsigned
    have signed : signedHeaders config request.headers = signedHeaders config request'.headers :=
      signedHeaders_congr (by rw [get_of_header idHeader, get_of_header idHeader'])
        (by rw [get_of_header timestampHeader, get_of_header timestampHeader'])
    have forwarded :
        (forwardedHeaders config request.headers).filter (fun entry => entry.1 = header) =
        (forwardedHeaders config request'.headers).filter (fun entry => entry.1 = header) := by
      obtain kept | rfl | rfl := unsigned
      · rw [filter_forwardedHeaders_of_notMem kept, filter_forwardedHeaders_of_notMem kept]
      · rw [filter_forwardedHeaders, filter_forwardedHeaders,
          values_of_header headerName_webhookId idHeader,
          values_of_header headerName_webhookId idHeader']
      · rw [filter_forwardedHeaders, filter_forwardedHeaders,
          values_of_header headerName_webhookTimestamp timestampHeader,
          values_of_header headerName_webhookTimestamp timestampHeader']
    simp [makeRecord, forwarded, signed]

def deliveriesEndpoint : WebhookEndpoint where
  name := "deliveries"
  targetTopic := "events"
  signatureMode := some .standardWebhooks
  secret := some "whsec_k"

theorem compile_deliveriesEndpoint :
    compile plainCrypto noJson [deliveriesEndpoint] =
      .ok (Lib.set (fun _ => none) "deliveries" (some deliveries)) := by
  rfl

def delivery (contentType : String) : Request where
  headers := ("content-type", bytesOf contentType) ::
    deliveryHeaders "a" "1000" "v1,ka.1000.b"
  body := bytesOf "b"
  intact := true
  late := false

def deliveryRecord : GatewayRecord where
  topic := "events"
  key := none
  value := bytesOf "b"
  bodyStructured := none
  headers := [("webhook-id", some (bytesOf "a")), ("webhook-timestamp", some (bytesOf "1000"))]
  partition := none
  timestampMs := none
  idempotencyKey := some "a"

theorem content_type_does_not_matter :
    deliveryRecord.idempotencyKey =
      (header (delivery "text/plain").headers "webhook-id").map asString :=
  (unsigned_headers_do_not_matter compile_deliveriesEndpoint (Lib.set_self _ "deliveries" _) rfl
    (show ingest plainCrypto noJson deliveries true (delivery "text/plain") 1000 =
      .ok deliveryRecord from by decide)
    (show ingest plainCrypto noJson deliveries true
      (delivery "application/cloudevents-batch+json") 1010 = .ok deliveryRecord from by decide)
    (by decide) (by decide) rfl).2.2.2.2.1

end KrabkaGateway.Webhook
