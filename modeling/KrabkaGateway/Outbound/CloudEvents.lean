import KrabkaGateway.Webhook.CloudEvents
import KrabkaGateway.Outbound.Delivery

/-!
# CloudEvents of records

The egress half of `ce_translate.rs` and the binary rendering of `outbound.rs`.
Both translations of headers go through what a header stands for: `ce-` and `ce_`
name an attribute, and the data content type is a header of its own. JSON and
base64 are libraries.
-/

namespace KrabkaGateway.Outbound

open Lib Webhook

structure EventLibrary (Query Value : Type) extends JsonLibrary Query Value where
  asBool : Value → Option Bool
  write : Value → Bytes
  base64Decode : Bytes → Option Bytes

/-! ## Headers -/

/-- Whether `HeaderValue::from_bytes` takes the bytes. -/
def isHeaderValue (value : Bytes) : Bool :=
  value.all fun byte => (32 ≤ byte && byte ≠ 127) || byte == 9

def headerToHttp (entry : String × Option Bytes) : Except CeError (Option (String × Bytes)) :=
  match entry.2 with
  | none => .ok none
  | some value =>
    let named (name : Option String) : Except CeError (Option (String × Bytes)) :=
      match name with
      | none => .error (.invalidHttpHeader entry.1)
      | some name =>
        if isHeaderValue value then .ok (some (name, value))
        else .error (.invalidHttpHeader entry.1)
    match stripPrefix "ce_".toList entry.1.toList with
    | some ceName =>
      if ceName = "datacontenttype".toList then named (some "content-type")
      else named (headerName ("ce-" ++ String.ofList ceName))
    | none => if entry.1 = "content-type" then named (some "content-type") else .ok none

def kafkaHeadersToHttp (headers : List (String × Option Bytes)) : Except CeError HeaderMap :=
  collect headerToHttp headers

/-! ## Structured events -/

section Structured

variable {Query Value : Type} (library : EventLibrary Query Value)

def isStructuredMediaType (mediaType : List Char) : Bool :=
  detectContentMode (some mediaType) false == .structured

def isStructuredAtRest : List (String × Option Bytes) → Except CeError Bool
  | [] => .ok false
  | (key, value) :: rest =>
    if key ≠ "content-type" then isStructuredAtRest rest
    else
      match value with
      | none => isStructuredAtRest rest
      | some value =>
        match utf8Chars value with
        | none => .error (.nonUtf8Attribute key)
        | some text =>
          if isStructuredMediaType text then .ok true else isStructuredAtRest rest

def scalarAttributeBytes (name : String) (value : Value) : Except CeError Bytes :=
  match library.asStr value with
  | some text => .ok (bytesOf text)
  | none =>
    match library.asBool value with
    | some true => .ok (bytesOf "true")
    | some false => .ok (bytesOf "false")
    | none =>
      match library.asNumber value with
      | some number => .ok (bytesOf number)
      | none => .error (.nonScalarAttribute name)

/-- The record header of an attribute. -/
def attributeToKafka (entry : String × Value) : Except CeError (String × Bytes) :=
  (scalarAttributeBytes library entry.1 entry.2).map fun value =>
    (if entry.1 = "datacontenttype" then "content-type" else "ce_" ++ entry.1, value)

def eventData (members : List (String × Value)) : Except CeError Bytes :=
  match members.lookup "data_base64" with
  | some encoded =>
    match (library.asStr encoded).bind fun text => library.base64Decode (bytesOf text) with
    | some data => .ok data
    | none => .error .malformedBase64
  | none =>
    match members.lookup "data" with
    | some data => .ok (library.write data)
    | none => .ok []

def binaryFromStructured (event : Value) : Except CeError (List (String × Bytes) × Bytes) := do
  validateStructuredJson library.toJsonLibrary event
  match library.members event with
  | none => .error .malformedJson
  | some members =>
    let attributes := members.filter fun entry => entry.1 ≠ "data" && entry.1 ≠ "data_base64"
    let headers ← attributes.mapM (attributeToKafka library)
    let data ← eventData library members
    return (headers, data)

def parseStructuredRecord (record : Payload) : Except CeError Value :=
  match library.read (record.value.getD []) with
  | none => .error .malformedJson
  | some event => .ok event

def presentHeaders (headers : List (String × Option Bytes)) : List (String × Bytes) :=
  headers.filterMap fun entry => entry.2.map fun value => (entry.1, value)

def validateRecordCloudevent (headers : List (String × Option Bytes)) : Except CeError Unit :=
  validateBinaryRequired (presentHeaders headers)

structure RenderedDelivery where
  body : Bytes
  headers : HeaderMap
  deriving DecidableEq, Repr

def eventParts (record : Payload) : Except CeError (List (String × Option Bytes) × Bytes) := do
  if ← isStructuredAtRest record.headers then
    let event ← parseStructuredRecord library record
    let (headers, body) ← binaryFromStructured library event
    return (headers.map fun entry => (entry.1, some entry.2), body)
  else
    validateRecordCloudevent record.headers
    return (record.headers, record.value.getD [])

def renderCloudeventsBinary (record : Payload) : Except CeError RenderedDelivery := do
  let (headers, body) ← eventParts library record
  let headers ← kafkaHeadersToHttp headers
  return { body, headers }

end Structured

/-! ## What a header stands for -/

inductive ContextName where
  | ceAttribute (name : String)
  | contentType
  deriving DecidableEq, Repr

namespace ContextName

/-- The part of the event that a header under this name carries; attributes are named with the
given letters in front. -/
def of (front : String) (name : String) : Option ContextName :=
  match stripPrefix front.toList name.toList with
  | some ceName =>
    if ceName = "datacontenttype".toList then some .contentType
    else some (.ceAttribute (String.ofList ceName))
  | none => if name = "content-type" then some .contentType else none

def header (front : String) : ContextName → String
  | .ceAttribute name => front ++ name
  | .contentType => "content-type"

theorem stripPrefix_eq_some {front text rest : List Char} :
    stripPrefix front text = some rest ↔ text = front ++ rest := by
  unfold stripPrefix
  split
  · rename_i starts
    obtain ⟨tail, rfl⟩ := List.isPrefixOf_iff_prefix.mp starts
    simp
  · rename_i starts
    constructor
    · intro absent
      cases absent
    · rintro rfl
      exact absurd (List.isPrefixOf_iff_prefix.mpr (List.prefix_append _ _)) starts

theorem of_eq_ceAttribute {front name ceName : String} :
    of front name = some (.ceAttribute ceName) ↔
      name = front ++ ceName ∧ ceName ≠ "datacontenttype" := by
  unfold of
  cases stripped : stripPrefix front.toList name.toList with
  | none =>
    have other : name ≠ front ++ ceName := by
      rintro rfl
      rw [String.toList_append, stripPrefix_eq_some.mpr rfl] at stripped
      cases stripped
    dsimp only
    split <;> simp [other]
  | some rest =>
    have whole := stripPrefix_eq_some.mp stripped
    dsimp only
    split
    · rename_i media
      have named : name = front ++ "datacontenttype" := by
        rw [← String.toList_inj, String.toList_append, whole, media]
      constructor
      · intro same
        cases same
      · rintro ⟨rfl, other⟩
        exact absurd (String.append_right_inj _ |>.mp named) other
    · rename_i other
      simp only [Option.some.injEq, ceAttribute.injEq]
      constructor
      · rintro rfl
        refine ⟨?_, ?_⟩
        · rw [← String.toList_inj, String.toList_append, whole, String.toList_ofList]
        · intro media
          exact other (by rw [← media, String.toList_ofList])
      · rintro ⟨rfl, _⟩
        rw [String.toList_append] at whole
        rw [← String.toList_inj, String.toList_ofList]
        exact (List.append_cancel_left whole).symm

theorem of_eq_contentType {front name : String}
    (apart : stripPrefix front.toList "content-type".toList = none) :
    of front name = some .contentType ↔
      name = "content-type" ∨ name = front ++ "datacontenttype" := by
  unfold of
  cases stripped : stripPrefix front.toList name.toList with
  | none =>
    have other : name ≠ front ++ "datacontenttype" := by
      rintro rfl
      rw [String.toList_append, stripPrefix_eq_some.mpr rfl] at stripped
      cases stripped
    dsimp only
    split <;> simp_all
  | some rest =>
    have whole := stripPrefix_eq_some.mp stripped
    have notMedia : name ≠ "content-type" := by
      rintro rfl
      rw [apart] at stripped
      cases stripped
    have named : rest = "datacontenttype".toList ↔ name = front ++ "datacontenttype" := by
      rw [← String.toList_inj, String.toList_append, whole]
      exact (List.append_right_inj _).symm
    dsimp only
    split
    · rename_i media
      simp [named.mp media]
    · rename_i other
      simp [notMedia, mt named.mpr other]

end ContextName

theorem headerToKafka_eq (entry : String × Bytes) :
    headerToKafka entry =
      match ContextName.of "ce-" entry.1 with
      | none => .ok none
      | some part =>
        match toStr entry.2 with
        | some text => .ok (some (part.header "ce_", text))
        | none => .error (.nonUtf8Attribute entry.1) := by
  unfold headerToKafka ContextName.of
  cases stripPrefix "ce-".toList entry.1.toList with
  | none =>
    dsimp only
    by_cases named : entry.1 = "content-type"
    · rw [if_pos named, if_pos named]
      cases toStr entry.2 <;> rfl
    · rw [if_neg named, if_neg named]
  | some ceName =>
    dsimp only
    by_cases media : ceName = "datacontenttype".toList
    · rw [if_pos media, if_pos media]
      cases toStr entry.2 <;> rfl
    · rw [if_neg media, if_neg media]
      cases toStr entry.2 <;> rfl

theorem headerToHttp_eq (key : String) (value : Bytes) :
    headerToHttp (key, some value) =
      match ContextName.of "ce_" key with
      | none => .ok none
      | some part =>
        match headerName (part.header "ce-") with
        | some name =>
          if isHeaderValue value then .ok (some (name, value))
          else .error (.invalidHttpHeader key)
        | none => .error (.invalidHttpHeader key) := by
  have media : headerName "content-type" = some "content-type" := by decide
  unfold headerToHttp ContextName.of
  dsimp only
  cases stripPrefix "ce_".toList key.toList with
  | none =>
    dsimp only
    by_cases named : key = "content-type"
    · rw [if_pos named, if_pos named]
      simp only [ContextName.header, media]
    · rw [if_neg named, if_neg named]
  | some ceName =>
    dsimp only
    by_cases declared : ceName = "datacontenttype".toList
    · rw [if_pos declared, if_pos declared]
      simp only [ContextName.header, media]
    · rw [if_neg declared, if_neg declared]
      cases found : headerName ("ce-" ++ String.ofList ceName) <;>
        simp only [ContextName.header, found]

/-! ## The context of an event -/

/-- The attributes and data content types among the headers. -/
def context (front : String) (headers : List (String × Bytes)) : List (ContextName × Bytes) :=
  headers.filterMap fun entry => (ContextName.of front entry.1).map fun part => (part, entry.2)

def headersOf (front : String) (parts : List (ContextName × Bytes)) : List (String × Bytes) :=
  parts.map fun part => (part.1.header front, part.2)

/-- Bytes that `HeaderValue::to_str` takes for text. -/
def isVisible (value : Bytes) : Bool :=
  value.all fun byte => (32 ≤ byte && byte < 127) || byte == 9

theorem toStr_eq (value : Bytes) : toStr value = if isVisible value then some value else none := by
  unfold toStr headerText isVisible
  split <;> rfl

variable {front : String} {value : Bytes}

theorem context_cons_of_none {name : String} (other : ContextName.of front name = none)
    (headers : List (String × Bytes)) :
    context front ((name, value) :: headers) = context front headers := by
  simp [context, other]

theorem context_cons_of_some {name : String} {part : ContextName}
    (found : ContextName.of front name = some part) (headers : List (String × Bytes)) :
    context front ((name, value) :: headers) = (part, value) :: context front headers := by
  simp [context, found]

theorem mem_context {headers : List (String × Bytes)} {part : ContextName × Bytes} :
    part ∈ context front headers ↔
      ∃ name, (name, part.2) ∈ headers ∧ ContextName.of front name = some part.1 := by
  obtain ⟨part, value⟩ := part
  simp only [context, List.mem_filterMap, Option.map_eq_some_iff, Prod.mk.injEq]
  constructor
  · rintro ⟨⟨name, _⟩, member, _, found, rfl, rfl⟩
    exact ⟨name, member, found⟩
  · rintro ⟨name, member, found⟩
    exact ⟨(name, value), member, part, found, rfl, rfl⟩

theorem httpHeadersToKafka_of_visible {headers : HeaderMap}
    (visible : ∀ part ∈ context "ce-" headers, isVisible part.2 = true) :
    httpHeadersToKafka headers = .ok (headersOf "ce_" (context "ce-" headers)) := by
  have each : ∀ entry ∈ headers, headerToKafka entry =
      .ok ((ContextName.of "ce-" entry.1).map fun part => (part.header "ce_", entry.2)) := by
    intro entry member
    rw [headerToKafka_eq]
    cases found : ContextName.of "ce-" entry.1 with
    | none => rfl
    | some part =>
      have own := visible (part, entry.2) (mem_context.mpr ⟨entry.1, member, found⟩)
      simp only at own
      simp [toStr_eq, own]
  have collected := collect_of_ok each
  rw [headersOf, context, List.map_filterMap]
  simpa [httpHeadersToKafka, collect, Option.map_map, Function.comp_def] using collected

theorem visible_of_httpHeadersToKafka {headers : HeaderMap} {translated : List (String × Bytes)}
    (result : httpHeadersToKafka headers = .ok translated) :
    ∀ part ∈ context "ce-" headers, isVisible part.2 = true := by
  intro part member
  obtain ⟨name, listed, found⟩ := mem_context.mp member
  obtain ⟨_, own⟩ := ok_of_collect result _ listed
  rw [headerToKafka_eq, found, toStr_eq] at own
  by_contra hidden
  simp [hidden] at own

variable {headers : List (String × Option Bytes)}

theorem mem_presentHeaders {key : String} :
    (key, value) ∈ presentHeaders headers ↔ (key, some value) ∈ headers := by
  simp only [presentHeaders, List.mem_filterMap, Option.map_eq_some_iff, Prod.mk.injEq]
  constructor
  · rintro ⟨⟨_, _⟩, member, _, rfl, rfl, rfl⟩
    exact member
  · intro member
    exact ⟨_, member, value, rfl, rfl, rfl⟩

theorem kafkaHeadersToHttp_of_valid
    (valid : ∀ part ∈ context "ce_" (presentHeaders headers), isHeaderValue part.2 = true ∧
      headerName (part.1.header "ce-") = some (part.1.header "ce-")) :
    kafkaHeadersToHttp headers =
      .ok (headersOf "ce-" (context "ce_" (presentHeaders headers))) := by
  have each : ∀ entry ∈ headers, headerToHttp entry =
      .ok (entry.2.bind fun value =>
        (ContextName.of "ce_" entry.1).map fun part => (part.header "ce-", value)) := by
    rintro ⟨key, value⟩ member
    cases value with
    | none => rfl
    | some value =>
      rw [headerToHttp_eq]
      cases found : ContextName.of "ce_" key with
      | none => simp
      | some part =>
        obtain ⟨sent, named⟩ := valid (part, value)
          (mem_context.mpr ⟨key, mem_presentHeaders.mpr member, found⟩)
        simp only at sent named
        simp [named, sent]
  have collected := collect_of_ok each
  rw [kafkaHeadersToHttp, collected, headersOf, context, presentHeaders, List.map_filterMap,
    List.filterMap_filterMap]
  congr 2
  funext entry
  cases entry.2 with
  | none => rfl
  | some value => simp [Option.map_map, Function.comp_def]

theorem valid_of_kafkaHeadersToHttp {rendered : HeaderMap}
    (result : kafkaHeadersToHttp headers = .ok rendered) :
    ∀ part ∈ context "ce_" (presentHeaders headers), isHeaderValue part.2 = true ∧
      (headerName (part.1.header "ce-")).isSome := by
  intro part member
  obtain ⟨key, present, found⟩ := mem_context.mp member
  obtain ⟨_, own⟩ := ok_of_collect result _ (mem_presentHeaders.mp present)
  rw [headerToHttp_eq, found] at own
  dsimp only at own
  cases named : headerName (part.1.header "ce-") with
  | none =>
    rw [named] at own
    cases own
  | some name =>
    rw [named] at own
    dsimp only at own
    split at own
    · rename_i sent
      exact ⟨sent, rfl⟩
    · cases own

end KrabkaGateway.Outbound
