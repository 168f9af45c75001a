import KrabkaGateway.Webhook.Config
import KrabkaGateway.Lib.Text

/-!
# CloudEvents over HTTP

The ingress half of `ce_translate.rs`: which content mode a request is in, and the
record headers of an event.
-/

namespace KrabkaGateway.Webhook

open Lib

variable {Query Value : Type}

inductive IngressMode where
  | binary
  | structured
  | batch
  | notCloudEvent
  deriving DecidableEq, Repr

inductive CeError where
  | missingAttribute (name : String)
  | nonUtf8Attribute (name : String)
  | unsupportedSpecVersion
  | malformedJson
  | malformedBase64
  | conflictingData
  | nonScalarAttribute (name : String)
  | invalidHttpHeader (name : String)
  deriving DecidableEq, Repr

def requiredAttributes : List String :=
  ["id", "source", "type", "specversion"]

def baseMediaType (mediaType : List Char) : List Char :=
  (trim (mediaType.takeWhile (· ≠ ';'))).map Char.toLower

def detectContentMode (mediaType : Option (List Char)) (hasCeHeader : Bool) : IngressMode :=
  let base := mediaType.map baseMediaType
  if base.any ("application/cloudevents-batch".toList.isPrefixOf ·) then .batch
  else if base.any ("application/cloudevents".toList.isPrefixOf ·) then .structured
  else if hasCeHeader then .binary
  else .notCloudEvent

def headerToKafka (entry : String × Bytes) : Except CeError (Option (String × Bytes)) :=
  let kafkaName : Option String :=
    match stripPrefix "ce-".toList entry.1.toList with
    | some ceName =>
      if ceName = "datacontenttype".toList then some "content-type"
      else some ("ce_" ++ String.ofList ceName)
    | none => if entry.1 = "content-type" then some "content-type" else none
  match kafkaName with
  | none => .ok none
  | some name =>
    match toStr entry.2 with
    | some text => .ok (some (name, text))
    | none => .error (.nonUtf8Attribute entry.1)

def httpHeadersToKafka (headers : HeaderMap) : Except CeError (List (String × Bytes)) :=
  (headers.mapM headerToKafka).map (·.filterMap id)

def isUtf8 (bytes : Bytes) : Bool :=
  (String.fromUTF8? ⟨bytes.toArray⟩).isSome

def validateBinaryRequired (headers : List (String × Bytes)) : Except CeError Unit :=
  match headers.find? fun entry => "ce_".toList.isPrefixOf entry.1.toList && !isUtf8 entry.2 with
  | some entry => .error (.nonUtf8Attribute entry.1)
  | none =>
    match requiredAttributes.find? fun ceName =>
        !headers.any fun entry => entry.1 = "ce_" ++ ceName && entry.2 ≠ [] with
    | some ceName => .error (.missingAttribute ceName)
    | none =>
      if headers.lookup "ce_specversion" = some (bytesOf "1.0") then .ok ()
      else .error .unsupportedSpecVersion

def validateStructuredJson (json : JsonLibrary Query Value) (event : Value) :
    Except CeError Unit :=
  match json.members event with
  | none => .error .malformedJson
  | some members =>
    let text (name : String) : Option String := members.lookup name >>= json.asStr
    if (members.lookup "data").isSome ∧ (members.lookup "data_base64").isSome then
      .error .conflictingData
    else
      match requiredAttributes.find? fun ceName => !(text ceName).any (· ≠ "") with
      | some ceName => .error (.missingAttribute ceName)
      | none =>
        if text "specversion" = some "1.0" then .ok () else .error .unsupportedSpecVersion

structure TranslatedIngress where
  headers : List (String × Option Bytes)
  value : Bytes
  isCloudEvent : Bool
  deriving DecidableEq, Repr

/-- `translate_cloudevent_ingress` of `webhook.rs`; an error is an HTTP status. -/
def translateCloudeventIngress (json : JsonLibrary Query Value) (headers : HeaderMap)
    (body : Bytes) : Except Nat TranslatedIngress :=
  let mediaType := headers.get "content-type" >>= toStr
  let hasCeHeader := headers.any fun entry => "ce-".toList.isPrefixOf entry.1.toList
  match detectContentMode (mediaType.map fun text => (asString text).toList) hasCeHeader with
  | .batch => .error 415
  | .notCloudEvent => .ok { headers := [], value := body, isCloudEvent := false }
  | .binary =>
    match httpHeadersToKafka headers with
    | .error _ => .error 400
    | .ok translated =>
      match validateBinaryRequired translated with
      | .error _ => .error 400
      | .ok () =>
        .ok {
          headers := translated.map fun entry => (entry.1, some entry.2)
          value := body
          isCloudEvent := true }
  | .structured =>
    match json.read body with
    | none => .error 400
    | some event =>
      match validateStructuredJson json event with
      | .error _ => .error 400
      | .ok () =>
        .ok {
          headers := [("content-type",
            some (mediaType.getD (bytesOf "application/cloudevents+json")))]
          value := body
          isCloudEvent := true }

end KrabkaGateway.Webhook
