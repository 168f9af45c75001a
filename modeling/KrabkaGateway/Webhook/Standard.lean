import Mathlib.Algebra.Group.Int.Defs
import KrabkaGateway.Webhook.Config

/-!
# Standard Webhooks

`authenticate` of `standard_webhooks.rs`. The signature covers the id, the
timestamp and the body, joined by full stops. The timestamp has only digits, but
the id may contain full stops of its own, and then the signed text can be cut in
more than one way.
-/

namespace KrabkaGateway.Webhook

variable {Query Value : Type}

def header (headers : HeaderMap) (name : String) : Option Bytes :=
  match headers.getAll name with
  | [] => none
  | value :: others => do
      let text ← toStr value
      if text ≠ [] ∧ others = [] then some text else none

def isDigit (byte : UInt8) : Bool :=
  48 ≤ byte && byte ≤ 57

def digitsValue (digits : Bytes) : Nat :=
  digits.foldl (fun value byte => value * 10 + (byte.toNat - 48)) 0

/-- A decimal number of 64 bits, with an optional sign. -/
def parseI64 (text : Bytes) : Option Int :=
  let (negative, digits) : Bool × Bytes :=
    match text with
    | 45 :: rest => (true, rest)
    | 43 :: rest => (false, rest)
    | _ => (false, text)
  if digits.isEmpty || !digits.all isDigit then none
  else
    let value : Int := if negative then -(digitsValue digits : Int) else digitsValue digits
    if -2 ^ 63 ≤ value ∧ value < 2 ^ 63 then some value else none

/-- The distance of two instants in seconds. -/
def skew (now : Int64) (epoch : Int) : Int :=
  (now.toInt - epoch).natAbs

def isAsciiWhitespace (byte : UInt8) : Bool :=
  byte == 32 || byte == 9 || byte == 10 || byte == 12 || byte == 13

def splitAsciiWhitespace (text : Bytes) : List Bytes :=
  (text.splitOnP isAsciiWhitespace).filter fun part => part ≠ []

/-- What a signature is made of. -/
def signedContent (id timestamp body : Bytes) : Bytes :=
  id ++ 46 :: (timestamp ++ 46 :: body)

def matchesSignature (crypto : Crypto) (expected signature : Bytes) : Bool :=
  match stripPrefix (bytesOf "v1,") signature with
  | some encoded =>
    match crypto.base64Decode encoded with
    | some decoded => expected = decoded
    | none => false
  | none => false

def authenticate (crypto : Crypto) (config : CompiledWebhook Query) (headers : HeaderMap)
    (body : Bytes) (now : Int64) : Option (Bytes × Bytes) := do
  let id ← header headers "webhook-id"
  if id.length > 512 then none else
  let timestamp ← header headers "webhook-timestamp"
  if !timestamp.all isDigit then none else
  let epoch ← parseI64 timestamp
  if skew now epoch ≥ 2 ^ 63 ∨ secs (skew now epoch) > config.timestampTolerance then none else
  let signatures ← header headers "webhook-signature"
  let key ← config.secret
  let expected := crypto.hmacSha256 key (signedContent id timestamp body)
  if (splitAsciiWhitespace signatures).any (matchesSignature crypto expected) then
    some (id, timestamp)
  else none

/-! ## What an accepted request is -/

/-- The checks an accepted request has passed. -/
structure Authentic (crypto : Crypto) (config : CompiledWebhook Query) (headers : HeaderMap)
    (body : Bytes) (now : Int64) (id timestamp : Bytes) : Prop where
  idHeader : header headers "webhook-id" = some id
  timestampHeader : header headers "webhook-timestamp" = some timestamp
  digits : timestamp.all isDigit
  signed : ∃ signatures key, header headers "webhook-signature" = some signatures ∧
    config.secret = some key ∧ (splitAsciiWhitespace signatures).any
      (matchesSignature crypto (crypto.hmacSha256 key (signedContent id timestamp body)))

variable {crypto : Crypto} {body timestamp : Bytes}

theorem authentic_of_authenticate {config : CompiledWebhook Query} {headers : HeaderMap}
    {now : Int64} {id : Bytes}
    (accepts : authenticate crypto config headers body now = some (id, timestamp)) :
    Authentic crypto config headers body now id timestamp := by
  simp only [authenticate, Option.bind_eq_bind, Option.bind_eq_some_iff,
    Option.ite_none_left_eq_some, Option.ite_none_right_eq_some, Option.some.injEq,
    Prod.mk.injEq, Bool.not_eq_true'] at accepts
  obtain ⟨_, idHeader, _, _, timestampHeader, digits, _, _, _, signatures, carried, key,
    configured, valid, rfl, rfl⟩ := accepts
  exact ⟨idHeader, timestampHeader, by simpa using digits, signatures, key, carried, configured,
    valid⟩

theorem eq_of_append_cons_eq {separator : UInt8} {first second firstRest secondRest : Bytes}
    (joined : first ++ separator :: firstRest = second ++ separator :: secondRest)
    (counts : first.count separator = second.count separator) :
    first = second ∧ firstRest = secondRest := by
  induction first generalizing second with
  | nil =>
    cases second with
    | nil => exact ⟨rfl, (List.cons.inj joined).2⟩
    | cons byte rest =>
      simp [(List.cons.inj joined).1] at counts
  | cons byte rest ih =>
    cases second with
    | nil => simp [(List.cons.inj joined).1] at counts
    | cons other others =>
      obtain ⟨rfl, tails⟩ := List.cons.inj joined
      obtain ⟨rfl, same⟩ := ih tails (by
        simpa [List.count_cons] using counts)
      exact ⟨rfl, same⟩

theorem count_eq_zero_of_digits (digits : timestamp.all isDigit) : timestamp.count 46 = 0 := by
  rw [List.count_eq_zero]
  intro member
  have digit := List.all_eq_true.mp digits 46 member
  contradiction

/-- The number of full stops in the id decides where the parts of the signed text end. -/
theorem eq_of_signedContent_eq {id id' timestamp' body' : Bytes} (digits : timestamp.all isDigit)
    (digits' : timestamp'.all isDigit)
    (same : signedContent id timestamp body = signedContent id' timestamp' body')
    (stops : id.count 46 = id'.count 46) : id = id' ∧ timestamp = timestamp' ∧ body = body' := by
  obtain ⟨sameId, rest⟩ := eq_of_append_cons_eq same stops
  have counts : timestamp.count 46 = timestamp'.count 46 := by
    rw [count_eq_zero_of_digits digits, count_eq_zero_of_digits digits']
  obtain ⟨sameTimestamp, sameBody⟩ := eq_of_append_cons_eq rest counts
  exact ⟨sameId, sameTimestamp, sameBody⟩

/-! ## What a signature binds -/

def AcceptedWith (crypto : Crypto) (config : CompiledWebhook Query) (headers : HeaderMap)
    (body : Bytes) (now : Int64) (signature id timestamp : Bytes) : Prop :=
  authenticate crypto config headers body now = some (id, timestamp) ∧
    ∃ signatures key, header headers "webhook-signature" = some signatures ∧
      signature ∈ splitAsciiWhitespace signatures ∧ config.secret = some key ∧
      matchesSignature crypto (crypto.hmacSha256 key (signedContent id timestamp body)) signature

theorem decoded_of_matchesSignature {expected signature : Bytes}
    (valid : matchesSignature crypto expected signature) :
    ∃ encoded, stripPrefix (bytesOf "v1,") signature = some encoded ∧
      crypto.base64Decode encoded = some expected := by
  unfold matchesSignature at valid
  split at valid
  · rename_i encoded stripped
    split at valid
    · rename_i decoded decodes
      rw [decide_eq_true_eq] at valid
      exact ⟨encoded, stripped, valid ▸ decodes⟩
    · contradiction
  · contradiction

/-- Two requests that are accepted for one signature are the same message exactly when their ids
have equally many full stops. -/
theorem signature_binds_message_iff (crypto : Crypto) (config : CompiledWebhook Query)
    (collisionFree : ∀ key, Function.Injective (crypto.hmacSha256 key))
    {headers headers' : HeaderMap} {body body' : Bytes} {now now' : Int64}
    {signature id id' timestamp timestamp' : Bytes}
    (first : AcceptedWith crypto config headers body now signature id timestamp)
    (second : AcceptedWith crypto config headers' body' now' signature id' timestamp') :
    (id = id' ∧ timestamp = timestamp' ∧ body = body') ↔ id.count 46 = id'.count 46 := by
  constructor
  · rintro ⟨rfl, _, _⟩
    rfl
  · intro stops
    obtain ⟨accepts, _, key, _, _, configured, valid⟩ := first
    obtain ⟨accepts', _, key', _, _, configured', valid'⟩ := second
    obtain rfl : key = key' := Option.some.inj (configured.symm.trans configured')
    obtain ⟨encoded, stripped, decodes⟩ := decoded_of_matchesSignature valid
    obtain ⟨encoded', stripped', decodes'⟩ := decoded_of_matchesSignature valid'
    obtain rfl : encoded = encoded' := Option.some.inj (stripped.symm.trans stripped')
    have digests := Option.some.inj (decodes.symm.trans decodes')
    exact eq_of_signedContent_eq (authentic_of_authenticate accepts).digits
      (authentic_of_authenticate accepts').digits (collisionFree key digests) stops

def plainCrypto : Crypto where
  hmacSha256 key message := key ++ message
  base64Decode := some
  hexDecode := some

theorem plainCrypto_injective (key : Bytes) : Function.Injective (plainCrypto.hmacSha256 key) :=
  fun _ _ same => List.append_cancel_left same

/-- A Standard Webhooks endpoint with the key `k`. -/
def deliveries : CompiledWebhook Empty where
  targetTopic := "events"
  signatureMode := some .standardWebhooks
  principal := "webhook:deliveries"
  secret := some (bytesOf "k")
  signatureHeader := none
  signatureEncoding := .hex
  signaturePrefix := none
  timestampHeader := none
  timestampTolerance := secs 300
  idempotencySource := some (.header "webhook-id")
  keySource := none
  forwardHeaders := []
  maxBody := 1024 * 1024
  schemaSubject := none
  schemaFormat := .json

def deliveryHeaders (id timestamp signature : String) : HeaderMap :=
  [("webhook-id", bytesOf id), ("webhook-timestamp", bytesOf timestamp),
    ("webhook-signature", bytesOf signature)]

theorem acceptedWith_deliveries (headers : HeaderMap) (id timestamp signature body : String)
    (accepts : authenticate plainCrypto deliveries headers (bytesOf body) 1000 =
      some (bytesOf id, bytesOf timestamp))
    (carried : header headers "webhook-signature" = some (bytesOf signature))
    (member : bytesOf signature ∈ splitAsciiWhitespace (bytesOf signature))
    (valid : matchesSignature plainCrypto
      (bytesOf "k" ++ signedContent (bytesOf id) (bytesOf timestamp) (bytesOf body))
      (bytesOf signature)) :
    AcceptedWith plainCrypto deliveries headers (bytesOf body) 1000 (bytesOf signature)
      (bytesOf id) (bytesOf timestamp) :=
  ⟨accepts, _, _, carried, member, rfl, valid⟩

/-- A delivery, and the same one sent again with another header. -/
theorem signature_binds_plain_delivery :
    ∃ second : HeaderMap, second ≠ deliveryHeaders "a" "1000" "v1,ka.1000.b" ∧
      AcceptedWith plainCrypto deliveries second (bytesOf "b") 1000 (bytesOf "v1,ka.1000.b")
        (bytesOf "a") (bytesOf "1000") ∧
      ((bytesOf "a" = bytesOf "a" ∧ bytesOf "1000" = bytesOf "1000" ∧ bytesOf "b" = bytesOf "b") ↔
        (bytesOf "a").count 46 = (bytesOf "a").count 46) := by
  have again := acceptedWith_deliveries
    (("x-retry", bytesOf "1") :: deliveryHeaders "a" "1000" "v1,ka.1000.b") "a" "1000"
    "v1,ka.1000.b" "b" (by decide) (by decide) (by decide) (by decide)
  exact ⟨_, by decide, again, signature_binds_message_iff plainCrypto deliveries
    plainCrypto_injective (acceptedWith_deliveries (deliveryHeaders "a" "1000" "v1,ka.1000.b")
      "a" "1000" "v1,ka.1000.b" "b" (by decide) (by decide) (by decide) (by decide)) again⟩

/-- One signature, two messages: the end of the first id is the second timestamp. -/
theorem one_signature_two_messages :
    (∀ key, Function.Injective (plainCrypto.hmacSha256 key)) ∧
    AcceptedWith plainCrypto deliveries (deliveryHeaders "a.1000" "1001" "v1,ka.1000.1001.b")
      (bytesOf "b") 1000 (bytesOf "v1,ka.1000.1001.b") (bytesOf "a.1000") (bytesOf "1001") ∧
    AcceptedWith plainCrypto deliveries (deliveryHeaders "a" "1000" "v1,ka.1000.1001.b")
      (bytesOf "1001.b") 1000 (bytesOf "v1,ka.1000.1001.b") (bytesOf "a") (bytesOf "1000") ∧
    bytesOf "a.1000" ≠ bytesOf "a" ∧ bytesOf "1001" ≠ bytesOf "1000" ∧
    bytesOf "b" ≠ bytesOf "1001.b" :=
  ⟨plainCrypto_injective,
    acceptedWith_deliveries _ _ _ _ _ (by decide) (by decide) (by decide) (by decide),
    acceptedWith_deliveries _ _ _ _ _ (by decide) (by decide) (by decide) (by decide),
    by decide, by decide, by decide⟩

end KrabkaGateway.Webhook
