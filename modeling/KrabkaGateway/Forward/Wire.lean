import KrabkaGateway.Lib.JsonCodec
import KrabkaGateway.Authz

/-!
# The forward protocol on the wire

Forwarded records and their results, as `forward.rs` writes and reads them, and
the size of a forwarded record in terms of the record itself.
-/

namespace KrabkaGateway.Forward

open Lib.Json

/-! ## Callers -/

/-- The tag of an authentication method. -/
def authMethodToStr : AuthMethod → String
  | .anonymous => "Anonymous"
  | .saslPlain => "SaslPlain"
  | .saslScramSha256 => "SaslScramSha256"
  | .saslScramSha512 => "SaslScramSha512"
  | .saslOAuthBearer => "SaslOAuthBearer"
  | .saslGssapi => "SaslGssapi"
  | .mTls => "MTls"

def authMethodFromStr (tag : String) : AuthMethod :=
  if tag = "SaslPlain" then .saslPlain
  else if tag = "SaslScramSha256" then .saslScramSha256
  else if tag = "SaslScramSha512" then .saslScramSha512
  else if tag = "SaslOAuthBearer" then .saslOAuthBearer
  else if tag = "SaslGssapi" then .saslGssapi
  else if tag = "MTls" then .mTls
  else .anonymous

theorem authMethodFromStr_toStr (method : AuthMethod) :
    authMethodFromStr (authMethodToStr method) = method := by
  cases method <;> decide

structure ForwardPrincipal where
  name : String
  authMethod : String
  groups : List String
  deriving DecidableEq, Repr

def ForwardPrincipal.fromPrincipal (principal : Principal) : ForwardPrincipal where
  name := principal.name
  authMethod := authMethodToStr principal.authMethod
  groups := principal.groups

def ForwardPrincipal.toPrincipal (relayed : ForwardPrincipal) : Principal where
  name := relayed.name
  authMethod := authMethodFromStr relayed.authMethod
  groups := relayed.groups

@[simp] theorem ForwardPrincipal.toPrincipal_fromPrincipal (principal : Principal) :
    (fromPrincipal principal).toPrincipal = principal := by
  simp [fromPrincipal, toPrincipal, authMethodFromStr_toStr]

instance : JsonForm ForwardPrincipal where
  toJson relayed := .object [("name", toJson relayed.name),
    ("auth_method", toJson relayed.authMethod), ("groups", toJson relayed.groups)]
  fromJson json := do
    match ← structFields ["name", "auth_method", "groups"] json with
    | [name, authMethod, groups] =>
      return { name := ← requiredField name, authMethod := ← requiredField authMethod,
               groups := ← requiredField groups }
    | _ => none
  fromJson_toJson relayed := by
    simp [structFields, lookupField]

instance : NeverNull ForwardPrincipal := ⟨fun _ => nofun⟩

/-! ## Records -/

structure ForwardRecord where
  topic : String
  key : Option Bytes
  value : Bytes
  headers : List (String × Option Bytes)
  partition : Option Int32
  timestampMs : Option Int64
  idempotencyKey : Option String
  principal : Option ForwardPrincipal
  deriving DecidableEq, Repr

/-- The wire form of a record. A structured body has no place in it. -/
def ForwardRecord.fromRecord (record : GatewayRecord) (caller : Principal) : ForwardRecord where
  topic := record.topic
  key := record.key
  value := record.value
  headers := record.headers
  partition := record.partition
  timestampMs := record.timestampMs
  idempotencyKey := record.idempotencyKey
  principal := some (.fromPrincipal caller)

/-- The owner takes every forwarded record for a raw one. -/
def ForwardRecord.intoRecord (forwarded : ForwardRecord) : GatewayRecord where
  topic := forwarded.topic
  key := forwarded.key
  value := forwarded.value
  bodyStructured := none
  headers := forwarded.headers
  partition := forwarded.partition
  timestampMs := forwarded.timestampMs
  idempotencyKey := forwarded.idempotencyKey

instance : JsonForm ForwardRecord where
  toJson forwarded := .object [("topic", toJson forwarded.topic), ("key", toJson forwarded.key),
    ("value", toJson forwarded.value), ("headers", toJson forwarded.headers),
    ("partition", toJson forwarded.partition), ("timestamp_ms", toJson forwarded.timestampMs),
    ("idempotency_key", toJson forwarded.idempotencyKey),
    ("principal", toJson forwarded.principal)]
  fromJson json := do
    match ← structFields ["topic", "key", "value", "headers", "partition", "timestamp_ms",
        "idempotency_key", "principal"] json with
    | [topic, key, value, headers, partition, timestampMs, idempotencyKey, principal] =>
      return { topic := ← requiredField topic, key := ← optionalField key,
               value := ← requiredField value, headers := ← requiredField headers,
               partition := ← optionalField partition,
               timestampMs := ← optionalField timestampMs,
               idempotencyKey := ← optionalField idempotencyKey,
               principal := ← optionalField principal }
    | _ => none
  fromJson_toJson forwarded := by
    simp [structFields, lookupField]

/-! ## Results -/

structure ForwardError where
  message : String
  retriable : Bool
  deriving DecidableEq, Repr

instance : JsonForm ForwardError where
  toJson error := .object [("message", toJson error.message),
    ("retriable", toJson error.retriable)]
  fromJson json := do
    match ← structFields ["message", "retriable"] json with
    | [message, retriable] =>
      return { message := ← requiredField message, retriable := ← requiredField retriable }
    | _ => none
  fromJson_toJson error := by
    simp [structFields, lookupField]

instance : NeverNull ForwardError := ⟨fun _ => nofun⟩

structure ForwardResult where
  partition : Int32
  offset : Int64
  deduplicated : Bool
  error : Option ForwardError
  deriving DecidableEq, Repr

instance : JsonForm ForwardResult where
  toJson result := .object [("partition", toJson result.partition),
    ("offset", toJson result.offset), ("deduplicated", toJson result.deduplicated),
    ("error", toJson result.error)]
  fromJson json := do
    match ← structFields ["partition", "offset", "deduplicated", "error"] json with
    | [partition, offset, deduplicated, error] =>
      return { partition := ← requiredField partition, offset := ← requiredField offset,
               deduplicated := ← requiredField deduplicated, error := ← optionalField error }
    | _ => none
  fromJson_toJson result := by
    simp [structFields, lookupField]

/-! ## The size of a forwarded record -/

def byteSize (byte : UInt8) : Nat :=
  if byte.toNat < 10 then 1 else if byte.toNat < 100 then 2 else 3

def listSize {α : Type} (itemSize : α → Nat) (items : List α) : Nat :=
  2 + (items.map itemSize).sum + (items.length - 1)

/-- An absent value is written `null`. -/
def optionSize {α : Type} (valueSize : α → Nat) : Option α → Nat
  | none => 4
  | some value => valueSize value

def bytesSize (bytes : Bytes) : Nat :=
  listSize byteSize bytes

/-- Bytes of the body that forwards a record of a caller. The two constants are the braces, the
names, the colons and the commas of the record and of the principal in it. -/
def forwardSize (record : GatewayRecord) (caller : Principal) : Nat :=
  98 + stringSize record.topic + optionSize bytesSize record.key + bytesSize record.value +
    listSize (fun header => 3 + stringSize header.1 + optionSize bytesSize header.2)
      record.headers +
    optionSize (fun partition => numberSize partition.toInt) record.partition +
    optionSize (fun timestamp => numberSize timestamp.toInt) record.timestampMs +
    optionSize stringSize record.idempotencyKey +
    (34 + stringSize caller.name + stringSize (authMethodToStr caller.authMethod) +
      listSize stringSize caller.groups)

theorem size_byte (byte : UInt8) : size (toJson byte) = byteSize byte := by
  have digits : ∀ value < 256, (Nat.toDigits 10 value).length =
      if value < 10 then 1 else if value < 100 then 2 else 3 := by decide +kernel
  simp [toJson, size, numberSize, byteSize, digits byte.toNat byte.toNat_lt]

theorem size_list {α : Type} [JsonForm α] {itemSize : α → Nat}
    (sized : ∀ item, size (toJson item) = itemSize item) (items : List α) :
    size (toJson items) = listSize itemSize items := by
  have each : (items.map toJson).map size = items.map itemSize := by
    rw [List.map_map]
    exact List.map_congr_left fun item _ => sized item
  have array : toJson items = .array (items.map toJson) := rfl
  rw [array, size, itemsSize_eq, each, List.length_map, listSize, Nat.add_assoc]

theorem size_option {α : Type} [JsonForm α] [NeverNull α] {valueSize : α → Nat}
    (sized : ∀ value, size (toJson value) = valueSize value) (value : Option α) :
    size (toJson value) = optionSize valueSize value := by
  cases value with
  | none => simp [toJson, size, optionSize]
  | some value => exact sized value

theorem size_bytes (bytes : Bytes) : size (toJson bytes) = bytesSize bytes :=
  size_list size_byte bytes

theorem size_string (text : String) : size (toJson text) = stringSize text := by
  simp [toJson, size]

theorem size_int32 (number : Int32) : size (toJson number) = numberSize number.toInt := by
  simp only [toJson, size]

theorem size_int64 (number : Int64) : size (toJson number) = numberSize number.toInt := by
  simp only [toJson, size]

theorem size_header (header : String × Option Bytes) :
    size (toJson header) = 3 + stringSize header.1 + optionSize bytesSize header.2 := by
  have pair : size (toJson header) = 2 + (size (toJson header.1) + 1 + size (toJson header.2)) := by
    simp only [toJson, size, itemsSize]
  rw [pair, size_string, size_option size_bytes]
  omega

theorem size_principal (caller : Principal) :
    size (toJson (ForwardPrincipal.fromPrincipal caller)) =
      34 + stringSize caller.name + stringSize (authMethodToStr caller.authMethod) +
        listSize stringSize caller.groups := by
  have names : stringSize "name" = 6 ∧ stringSize "auth_method" = 13 ∧ stringSize "groups" = 8 := by
    decide
  have object : size (toJson (ForwardPrincipal.fromPrincipal caller)) =
      2 + (stringSize "name" + 1 + size (toJson caller.name) + 1 +
        (stringSize "auth_method" + 1 + size (toJson (authMethodToStr caller.authMethod)) + 1 +
        (stringSize "groups" + 1 + size (toJson caller.groups)))) := by
    rw [show toJson (ForwardPrincipal.fromPrincipal caller) = .object [
      ("name", toJson caller.name), ("auth_method", toJson (authMethodToStr caller.authMethod)),
      ("groups", toJson caller.groups)] from rfl]
    simp only [size, membersSize]
  rw [object, size_string, size_string, size_list size_string]
  omega

theorem size_forwarded (record : GatewayRecord) (caller : Principal) :
    (encode (toJson (ForwardRecord.fromRecord record caller))).size =
      forwardSize record caller := by
  have names : stringSize "topic" = 7 ∧ stringSize "key" = 5 ∧ stringSize "value" = 7 ∧
      stringSize "headers" = 9 ∧ stringSize "partition" = 11 ∧ stringSize "timestamp_ms" = 14 ∧
      stringSize "idempotency_key" = 17 ∧ stringSize "principal" = 11 := by
    decide
  rw [size_encode, show toJson (ForwardRecord.fromRecord record caller) = .object [
    ("topic", toJson record.topic), ("key", toJson record.key), ("value", toJson record.value),
    ("headers", toJson record.headers), ("partition", toJson record.partition),
    ("timestamp_ms", toJson record.timestampMs),
    ("idempotency_key", toJson record.idempotencyKey),
    ("principal", toJson (some (ForwardPrincipal.fromPrincipal caller)))] from rfl]
  simp only [size, membersSize]
  rw [size_string, size_option size_bytes, size_bytes, size_list size_header,
    size_option size_int32, size_option size_int64, size_option size_string,
    show size (toJson (some (ForwardPrincipal.fromPrincipal caller))) =
      size (toJson (ForwardPrincipal.fromPrincipal caller)) from rfl, size_principal, forwardSize]
  omega

end KrabkaGateway.Forward
