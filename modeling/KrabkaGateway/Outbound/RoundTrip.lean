import KrabkaGateway.Lib.JsonCodec
import KrabkaGateway.Lib.Members
import KrabkaGateway.Outbound.CloudEvents

/-!
# Events in and out

An event that comes in over HTTP in binary mode goes out with the same attributes and the
same data, as long as its content type is declared once and is not that of a structured
event.
-/

namespace KrabkaGateway.Outbound

open Lib Webhook

/-! ## Contexts -/

theorem apart_http : stripPrefix "ce-".toList "content-type".toList = none := by decide

theorem apart_kafka : stripPrefix "ce_".toList "content-type".toList = none := by decide

/-- A part that a header can carry: the data content type has no attribute of its own. -/
def ContextName.Proper (part : ContextName) : Prop :=
  part ≠ .ceAttribute "datacontenttype"

variable {front name : String} {part : ContextName}

theorem ContextName.proper_of (found : ContextName.of front name = some part) : part.Proper := by
  rintro rfl
  exact (of_eq_ceAttribute.mp found).2 rfl

theorem ContextName.of_header (proper : part.Proper)
    (apart : stripPrefix front.toList "content-type".toList = none) :
    ContextName.of front (part.header front) = some part := by
  cases part with
  | ceAttribute name =>
    refine of_eq_ceAttribute.mpr ⟨rfl, ?_⟩
    rintro rfl
    exact proper rfl
  | contentType => exact (of_eq_contentType apart).mpr (Or.inl rfl)

theorem ContextName.header_eq (apart : stripPrefix front.toList "content-type".toList = none) :
    part.header front = "content-type" ↔ part = .contentType := by
  cases part with
  | ceAttribute name =>
    simp only [header, reduceCtorEq, iff_false]
    intro same
    have stripped : stripPrefix front.toList "content-type".toList = some name.toList :=
      stripPrefix_eq_some.mpr (by rw [← same, String.toList_append])
    rw [apart] at stripped
    cases stripped
  | contentType => simp [header]

theorem proper_of_mem_context {headers : List (String × Bytes)} {part : ContextName × Bytes}
    (member : part ∈ context front headers) : part.1.Proper := by
  obtain ⟨_, _, found⟩ := mem_context.mp member
  exact ContextName.proper_of found

variable {parts : List (ContextName × Bytes)}

/-- Headers made from a context have that context. -/
theorem context_headersOf (apart : stripPrefix front.toList "content-type".toList = none)
    (proper : ∀ part ∈ parts, part.1.Proper) : context front (headersOf front parts) = parts := by
  induction parts with
  | nil => rfl
  | cons part parts ih =>
    have found := ContextName.of_header (proper part List.mem_cons_self) apart
    rw [headersOf, List.map_cons, context_cons_of_some found, ← headersOf,
      ih fun part member => proper part (List.mem_cons_of_mem _ member)]

theorem presentHeaders_some (headers : List (String × Bytes)) :
    presentHeaders (headers.map fun entry => (entry.1, some entry.2)) = headers := by
  simp [presentHeaders, List.filterMap_map]

def contentTypes (parts : List (ContextName × Bytes)) : List Bytes :=
  parts.filterMap fun part => if part.1 = .contentType then some part.2 else none

/-! ## Media types -/

variable {value : Bytes}

theorem ascii_of_visible (visible : isVisible value = true) : ∀ byte ∈ value, byte < 128 := by
  intro byte member
  have own := List.all_eq_true.mp visible byte member
  simp only [Bool.or_eq_true, Bool.and_eq_true, decide_eq_true_eq, beq_iff_eq] at own
  rcases own with ⟨_, below⟩ | rfl
  · exact UInt8.lt_trans below (by decide)
  · decide

theorem utf8Chars_visible (visible : isVisible value = true) :
    utf8Chars value = some (asString value).toList := by
  rw [utf8Chars_ascii (ascii_of_visible visible), asString, String.toList_ofList]
  rfl

theorem sendable_of_visible (visible : isVisible value = true) : isHeaderValue value = true := by
  apply List.all_eq_true.mpr
  intro byte member
  have own := List.all_eq_true.mp visible byte member
  simp only [Bool.or_eq_true, Bool.and_eq_true, decide_eq_true_eq, beq_iff_eq] at own ⊢
  rcases own with ⟨above, below⟩ | rfl
  · exact Or.inl ⟨above, UInt8.ne_of_lt below⟩
  · exact Or.inr rfl

def isCloudEventsMediaType (value : Bytes) : Bool :=
  "application/cloudevents".toList.isPrefixOf (baseMediaType (asString value).toList)

def isStructuredValue (value : Bytes) : Bool :=
  isStructuredMediaType (asString value).toList

theorem detectContentMode_eq_binary {mediaType : Option (List Char)} {hasCeHeader : Bool} :
    detectContentMode mediaType hasCeHeader = .binary ↔
      (∀ text ∈ mediaType,
        "application/cloudevents".toList.isPrefixOf (baseMediaType text) = false) ∧
      hasCeHeader = true := by
  have batch : ∀ base : List Char, "application/cloudevents-batch".toList.isPrefixOf base = true →
      "application/cloudevents".toList.isPrefixOf base = true := by
    intro base starts
    rw [List.isPrefixOf_iff_prefix] at starts ⊢
    exact List.IsPrefix.trans ⟨"-batch".toList, by decide⟩ starts
  cases mediaType with
  | none => cases hasCeHeader <;> simp [detectContentMode]
  | some text =>
    unfold detectContentMode
    simp only [Option.map_some, Option.any_some, Option.mem_def, Option.some.injEq,
      forall_eq']
    by_cases isBatch : "application/cloudevents-batch".toList.isPrefixOf (baseMediaType text)
    · rw [if_pos isBatch, batch _ isBatch]
      simp
    · rw [if_neg isBatch]
      by_cases starts : "application/cloudevents".toList.isPrefixOf (baseMediaType text)
      · rw [if_pos starts, starts]
        simp
      · rw [if_neg starts, Bool.eq_false_iff.mpr starts]
        cases hasCeHeader <;> simp

theorem cloudEvents_of_structured (structured : isStructuredValue value = true) :
    isCloudEventsMediaType value = true := by
  unfold isStructuredValue isStructuredMediaType detectContentMode at structured
  unfold isCloudEventsMediaType
  by_contra other
  simp only [Option.map_some, Option.any_some, other] at structured
  split at structured <;> simp at structured

def ingressMode (headers : HeaderMap) : IngressMode :=
  detectContentMode ((headers.get "content-type" >>= toStr).map fun text => (asString text).toList)
    (headers.any fun entry => "ce-".toList.isPrefixOf entry.1.toList)

variable {headers : HeaderMap}

theorem translate_binary {Query Value : Type} {json : JsonLibrary Query Value}
    (binary : ingressMode headers = .binary) {body : Bytes} {translated : TranslatedIngress} :
    translateCloudeventIngress json headers body = .ok translated ↔
      (∀ part ∈ context "ce-" headers, isVisible part.2 = true) ∧
        validateBinaryRequired (headersOf "ce_" (context "ce-" headers)) = .ok () ∧
        translated = ⟨(headersOf "ce_" (context "ce-" headers)).map fun entry =>
          (entry.1, some entry.2), body, true⟩ := by
  unfold ingressMode at binary
  simp only [translateCloudeventIngress, binary]
  constructor
  · intro result
    split at result
    · cases result
    · rename_i found translates
      have visible := visible_of_httpHeadersToKafka translates
      obtain rfl := Except.ok.inj ((httpHeadersToKafka_of_visible visible).symm.trans translates)
      split at result
      · cases result
      · rename_i validates
        cases result
        exact ⟨visible, validates, rfl⟩
  · rintro ⟨visible, validates, rfl⟩
    simp only [httpHeadersToKafka_of_visible visible, validates]

/-! ## Events at rest -/

/-- Of text headers the content types decide. -/
theorem isStructuredAtRest_headersOf (visible : ∀ part ∈ parts, isVisible part.2 = true) :
    isStructuredAtRest ((headersOf "ce_" parts).map fun entry => (entry.1, some entry.2)) =
      .ok ((contentTypes parts).any isStructuredValue) := by
  induction parts with
  | nil => rfl
  | cons part parts ih =>
    obtain ⟨name, value⟩ := part
    have later := ih fun part member => visible part (List.mem_cons_of_mem _ member)
    have own := utf8Chars_visible (visible (name, value) List.mem_cons_self)
    simp only [headersOf, List.map_cons] at later ⊢
    unfold isStructuredAtRest
    by_cases media : name = .contentType
    · subst media
      simp only [ContextName.header, ne_eq, not_true_eq_false, if_false, own]
      simp only [contentTypes, List.filterMap_cons, if_true, List.any_cons]
      by_cases structured : isStructuredMediaType (asString value).toList
      · rw [if_pos structured]
        simp [isStructuredValue, structured]
      · rw [if_neg structured]
        simp only [isStructuredValue, structured, Bool.false_or]
        exact later
    · rw [if_pos (mt (ContextName.header_eq apart_kafka).mp media), later]
      simp [contentTypes, media]

/-- What is used of JSON and base64: texts and decoded data are shorter than the JSON around them,
and a value that is written and read back does not contain itself. -/
structure EventLibrary.Lawful {Query Value : Type} (library : EventLibrary Query Value) : Prop where
  empty : library.read [] = none
  shorter : ∀ body event members name value text, library.read body = some event →
    library.members event = some members → members.lookup name = some value →
    library.asStr value = some text → (bytesOf text).length < body.length
  decoded : ∀ text data, library.base64Decode text = some data → data.length ≤ text.length
  inside : ∀ event members data, library.members event = some members →
    members.lookup "data" = some data → library.read (library.write data) ≠ some event

section Structured

variable {Query Value : Type} {library : EventLibrary Query Value}

variable {body : Bytes}

/-- The data of an event is not the event. -/
theorem eventData_ne (lawful : library.Lawful) {data : Bytes} {event : Value}
    {members : List (String × Value)} (reads : library.read body = some event)
    (object : library.members event = some members) (found : eventData library members = .ok data) :
    data ≠ body := by
  unfold eventData at found
  split at found
  · rename_i encoded member
    cases text : library.asStr encoded with
    | none => simp [text] at found
    | some text' =>
      have short := lawful.shorter _ _ _ _ _ _ reads object member text
      cases decodes : library.base64Decode (bytesOf text') with
      | none => simp [text, decodes] at found
      | some decoded =>
        have bound := lawful.decoded _ _ decodes
        simp only [text, Option.bind_some, decodes, Except.ok.injEq] at found
        subst found
        rintro rfl
        omega
  · split at found
    · rename_i inner member
      cases found
      rintro rfl
      exact lawful.inside _ _ _ object member reads
    · cases found
      rintro rfl
      rw [lawful.empty] at reads
      cases reads

variable {record : Payload}

/-- What a structured record is rendered to. -/
theorem eventParts_structured {headers : List (String × Option Bytes)}
    (structured : isStructuredAtRest record.headers = .ok true)
    (found : eventParts library record = .ok (headers, body)) :
    ∃ event members attributes, library.read (record.value.getD []) = some event ∧
      validateStructuredJson library.toJsonLibrary event = .ok () ∧
      library.members event = some members ∧
      (members.filter fun entry => entry.1 ≠ "data" && entry.1 ≠ "data_base64").mapM
        (attributeToKafka library) = .ok attributes ∧
      headers = attributes.map (fun entry => (entry.1, some entry.2)) ∧
      eventData library members = .ok body := by
  unfold eventParts at found
  rw [structured] at found
  obtain ⟨_, isTrue, found⟩ := ok_of_bind found
  cases isTrue
  rw [if_pos rfl] at found
  obtain ⟨event, parsed, found⟩ := ok_of_bind found
  obtain ⟨⟨attributes, data⟩, translated, found⟩ := ok_of_bind found
  cases found
  obtain ⟨_, valid, translated⟩ := ok_of_bind translated
  unfold parseStructuredRecord at parsed
  split at parsed
  · cases parsed
  · rename_i read reads
    cases parsed
    split at translated
    · cases translated
    · rename_i members object
      obtain ⟨mapped, attributesOf, translated⟩ := ok_of_bind translated
      obtain ⟨content, dataOf, translated⟩ := ok_of_bind translated
      cases translated
      exact ⟨event, members, attributes, reads, valid, object, attributesOf, rfl, dataOf⟩

theorem eventParts_binary (unstructured : isStructuredAtRest record.headers = .ok false) :
    eventParts library record =
      (validateRecordCloudevent record.headers).map fun _ =>
        (record.headers, record.value.getD []) := by
  unfold eventParts
  rw [unstructured]
  rfl

end Structured

/-! ## In and out -/

/-- The headers of an HTTP request: names are in their canonical form, and values are values that
HTTP can carry. -/
structure HttpHeaders where
  map : HeaderMap
  canonical : ∀ entry ∈ map, headerName entry.1 = some entry.1
  sendable : ∀ entry ∈ map, isHeaderValue entry.2 = true

def isCeHeader (entry : String × Bytes) : Bool :=
  "ce-".toList.isPrefixOf entry.1.toList

/-- An attribute other than the data content type. -/
def isAttributeHeader (entry : String × Bytes) : Bool :=
  isCeHeader entry && entry.1 ≠ "ce-datacontenttype"

def PresentOnce (headers : HeaderMap) : Prop :=
  ((headers.filter fun entry => isCeHeader entry || entry.1 = "content-type").map Prod.fst).Nodup

def declaredContentType (headers : HeaderMap) : Option Bytes :=
  match headers.values "content-type", headers.values "ce-datacontenttype" with
  | [], [] => none
  | value :: _, [] => some value
  | [], value :: _ => some value
  | value :: _, other :: _ => if value = other then some value else none

/-- The record is rendered to the attributes and the body of the request, and to one content type
if the request declared one. -/
def Survives {Query Value : Type} (library : EventLibrary Query Value) (headers : HeaderMap)
    (body : Bytes) (record : Payload) : Prop :=
  ∃ rendered, renderCloudeventsBinary library record = .ok rendered ∧ rendered.body = body ∧
    rendered.headers.filter isCeHeader = headers.filter isAttributeHeader ∧
    rendered.headers.values "content-type" = (declaredContentType headers).toList ∧
    ∀ entry ∈ rendered.headers, isCeHeader entry = true ∨ entry.1 = "content-type"

theorem isCeHeader_iff : isCeHeader (name, value) = true ↔ ∃ ceName, name = "ce-" ++ ceName := by
  rw [isCeHeader, List.isPrefixOf_iff_prefix]
  constructor
  · rintro ⟨rest, whole⟩
    refine ⟨String.ofList rest, String.toList_inj.mp ?_⟩
    rw [String.toList_append, String.toList_ofList (l := rest)]
    exact whole.symm
  · rintro ⟨ceName, rfl⟩
    exact ⟨ceName.toList, by rw [String.toList_append]⟩

theorem isCeHeader_contentType (value : Bytes) : isCeHeader ("content-type", value) = false := by
  have none : "ce-".toList.isPrefixOf "content-type".toList = false := by decide
  exact none

theorem PresentOnce.length_values_le (once : PresentOnce headers)
    (belongs : isCeHeader (name, []) = true ∨ name = "content-type") :
    (headers.values name).length ≤ 1 := by
  have count := List.nodup_iff_count_le_one.mp once name
  rw [List.count, List.countP_map, List.countP_filter] at count
  rw [HeaderMap.values, List.length_map, ← List.countP_eq_length_filter]
  refine le_trans (List.countP_mono_left fun entry _ own => ?_) count
  obtain rfl : entry.1 = name := by simpa using own
  simpa [isCeHeader] using belongs

theorem get_contentType (headers : HeaderMap) :
    headers.get "content-type" = (headers.values "content-type").head? := by
  have canonical : headerName "content-type" = some "content-type" := by decide
  rw [HeaderMap.get, HeaderMap.getAll, canonical]

/-- The first content type and the presence of an attribute decide on binary mode. -/
theorem ingressMode_eq_binary :
    ingressMode headers = .binary ↔
      (∀ value, (headers.values "content-type").head? = some value → isVisible value = true →
        isCloudEventsMediaType value = false) ∧
      headers.any isCeHeader = true := by
  rw [ingressMode, detectContentMode_eq_binary, get_contentType]
  apply and_congr_left'
  cases (headers.values "content-type").head? with
  | none => simp
  | some value =>
    simp only [Option.bind_eq_bind, Option.bind_some, toStr_eq, Option.some.injEq, forall_eq']
    by_cases visible : isVisible value <;> simp [visible, isCloudEventsMediaType]

theorem isCeHeader_of_none (other : ContextName.of "ce-" name = none) :
    isCeHeader (name, value) = false := by
  by_contra starts
  obtain ⟨ceName, rfl⟩ := isCeHeader_iff.mp (Bool.of_not_eq_false starts)
  by_cases media : ceName = "datacontenttype"
  · rw [(ContextName.of_eq_contentType apart_http).mpr (Or.inr (by rw [media]))] at other
    cases other
  · rw [ContextName.of_eq_ceAttribute.mpr ⟨rfl, media⟩] at other
    cases other

/-- What is sent for the context of some headers: their attributes, -/
theorem filter_headersOf_context (headers : HeaderMap) :
    (headersOf "ce-" (context "ce-" headers)).filter isCeHeader =
      headers.filter isAttributeHeader := by
  induction headers with
  | nil => rfl
  | cons entry headers ih =>
    obtain ⟨name, value⟩ := entry
    cases found : ContextName.of "ce-" name with
    | none =>
      have skipped : ¬ isAttributeHeader (name, value) = true := by
        simp [isAttributeHeader, isCeHeader_of_none found]
      rw [context_cons_of_none found, ih, List.filter_cons_of_neg skipped]
    | some part =>
      rw [context_cons_of_some found, headersOf, List.map_cons, ← headersOf]
      cases part with
      | ceAttribute ceName =>
        obtain ⟨rfl, other⟩ := ContextName.of_eq_ceAttribute.mp found
        have kept : isCeHeader ("ce-" ++ ceName, value) = true :=
          isCeHeader_iff.mpr ⟨ceName, rfl⟩
        have named : "ce-" ++ ceName ≠ "ce-datacontenttype" :=
          fun same => other ((String.append_right_inj "ce-").mp same)
        have keptToo : isAttributeHeader ("ce-" ++ ceName, value) = true := by
          simp [isAttributeHeader, kept, named]
        rw [ContextName.header, List.filter_cons_of_pos kept,
          List.filter_cons_of_pos keptToo, ih]
      | contentType =>
        have dropped : ¬ isCeHeader ("content-type", value) = true := by
          simp [isCeHeader_contentType]
        have skipped : ¬ isAttributeHeader (name, value) = true := by
          rcases (ContextName.of_eq_contentType apart_http).mp found with rfl | rfl
          · simp [isAttributeHeader, isCeHeader_contentType]
          · have named : "ce-" ++ "datacontenttype" = "ce-datacontenttype" := by decide
            simp [isAttributeHeader, named]
        rw [ContextName.header, List.filter_cons_of_neg dropped,
          List.filter_cons_of_neg skipped, ih]

/-- and their content types. -/
theorem values_headersOf (parts : List (ContextName × Bytes)) :
    HeaderMap.values (headersOf "ce-" parts) "content-type" = contentTypes parts := by
  unfold HeaderMap.values headersOf contentTypes
  rw [List.filter_map, List.map_map, ← List.filterMap_eq_map, ← List.filterMap_eq_filter,
    List.filterMap_filterMap]
  congr 1
  funext part
  by_cases media : part.1 = .contentType <;> simp [ContextName.header_eq apart_http, media]

theorem contentTypes_context (headers : HeaderMap) :
    contentTypes (context "ce-" headers) =
      (headers.filter fun entry =>
        entry.1 = "content-type" || entry.1 = "ce-datacontenttype").map Prod.snd := by
  unfold contentTypes context
  rw [List.filterMap_filterMap, ← List.filterMap_eq_map, ← List.filterMap_eq_filter,
    List.filterMap_filterMap]
  congr 1
  funext entry
  have media : ContextName.of "ce-" entry.1 = some .contentType ↔
      entry.1 = "content-type" ∨ entry.1 = "ce-datacontenttype" :=
    ContextName.of_eq_contentType apart_http
  by_cases declares : entry.1 = "content-type" ∨ entry.1 = "ce-datacontenttype"
  · have found := media.mpr declares
    have kept : (decide (entry.1 = "content-type") || decide (entry.1 = "ce-datacontenttype")) =
        true := by simpa using declares
    simp [found, kept]
  · have kept : (decide (entry.1 = "content-type") || decide (entry.1 = "ce-datacontenttype")) =
        false := by simpa using declares
    cases found : ContextName.of "ce-" entry.1 with
    | none => simp [Option.guard, kept]
    | some part =>
      have other : part ≠ .contentType := by
        rintro rfl
        exact declares (media.mp found)
      simp [other, Option.guard, kept]

/-- The two ways to declare a content type. -/
theorem length_contentTypes_context (headers : HeaderMap) :
    (contentTypes (context "ce-" headers)).length =
      (headers.values "content-type").length +
        (headers.values "ce-datacontenttype").length := by
  rw [contentTypes_context]
  simp only [HeaderMap.values, List.length_map]
  induction headers with
  | nil => rfl
  | cons entry headers ih =>
    have apart : ¬ "content-type" = "ce-datacontenttype" := by decide
    by_cases first : entry.1 = "content-type"
    · simp [first, apart, ih]
      omega
    · by_cases second : entry.1 = "ce-datacontenttype"
      · simp [second, Ne.symm apart, ih]
        omega
      · simp [first, second, ih]

/-- A content type that is declared in one way. -/
theorem contentTypes_of_single
    (single : headers.values "content-type" = [] ∨ headers.values "ce-datacontenttype" = []) :
    contentTypes (context "ce-" headers) =
      headers.values "content-type" ++ headers.values "ce-datacontenttype" := by
  have none : ∀ name, headers.values name = [] → ∀ entry ∈ headers, entry.1 ≠ name := by
    intro name empty entry member same
    have listed : entry.2 ∈ headers.values name :=
      List.mem_map.mpr ⟨entry, List.mem_filter.mpr ⟨member, by simpa using same⟩, rfl⟩
    rw [empty] at listed
    cases listed
  rw [contentTypes_context]
  rcases single with absent | absent
  · rw [absent, List.nil_append, HeaderMap.values]
    congr 1
    apply List.filter_congr
    intro entry member
    simp [none _ absent entry member]
  · rw [absent, List.append_nil, HeaderMap.values]
    congr 1
    apply List.filter_congr
    intro entry member
    simp [none _ absent entry member]

theorem declaredContentType_of_single
    (single : headers.values "content-type" = [] ∨ headers.values "ce-datacontenttype" = [])
    (onceMedia : (headers.values "content-type").length ≤ 1)
    (onceDeclared : (headers.values "ce-datacontenttype").length ≤ 1) :
    (declaredContentType headers).toList =
      headers.values "content-type" ++ headers.values "ce-datacontenttype" := by
  unfold declaredContentType
  generalize headers.values "content-type" = media at *
  generalize headers.values "ce-datacontenttype" = declared at *
  rcases media with _ | ⟨value, _ | ⟨_, _⟩⟩ <;> rcases declared with _ | ⟨other, _ | ⟨_, _⟩⟩ <;>
    simp_all

/-- The content type of a request in binary mode is not that of a structured event. -/
theorem unstructured_of_binary (binary : ingressMode headers = .binary)
    (visible : ∀ part ∈ context "ce-" headers, isVisible part.2 = true)
    (once : (headers.values "content-type").length ≤ 1) :
    ∀ value ∈ headers.values "content-type", isStructuredValue value = false := by
  intro value member
  have first : (headers.values "content-type").head? = some value := by
    rcases found : headers.values "content-type" with _ | ⟨head, _ | ⟨_, _⟩⟩
    · simp [found] at member
    · simpa [found, eq_comm] using member
    · simp [found] at once
  obtain ⟨⟨name, own⟩, listed, rfl⟩ := List.mem_map.mp member
  obtain ⟨inside, named⟩ := List.mem_filter.mp listed
  have text : isVisible own = true := by
    apply visible (.contentType, own)
    refine mem_context.mpr ⟨name, inside, (ContextName.of_eq_contentType apart_http).mpr ?_⟩
    exact Or.inl (by simpa using named)
  have other := (ingressMode_eq_binary.mp binary).1 own first text
  by_contra structured
  rw [cloudEvents_of_structured (Bool.of_not_eq_false structured)] at other
  cases other

section Egress

variable {Query Value : Type} {library : EventLibrary Query Value}

/-- The record of an event that came in, in binary mode. -/
def recordOf (translated : TranslatedIngress) (key : Option Bytes) (timestamp : Int) : Payload :=
  ⟨key, some translated.value, translated.headers, timestamp⟩

/-- An event that came in and is binary at rest is rendered to the context it came with. -/
theorem render_of_unstructured (library : EventLibrary Query Value) {headers : HttpHeaders}
    {record : Payload}
    (visible : ∀ part ∈ context "ce-" headers.map, isVisible part.2 = true)
    (validates : validateBinaryRequired (headersOf "ce_" (context "ce-" headers.map)) = .ok ())
    (unstructured : (contentTypes (context "ce-" headers.map)).any isStructuredValue = false)
    (came : record.headers = (headersOf "ce_" (context "ce-" headers.map)).map fun entry =>
      (entry.1, some entry.2)) :
    renderCloudeventsBinary library record =
      .ok ⟨record.value.getD [], headersOf "ce-" (context "ce-" headers.map)⟩ := by
  have atRest := isStructuredAtRest_headersOf visible
  rw [unstructured, ← came] at atRest
  have present : presentHeaders record.headers = headersOf "ce_" (context "ce-" headers.map) := by
    rw [came, presentHeaders_some]
  have kept : context "ce_" (presentHeaders record.headers) = context "ce-" headers.map := by
    rw [present]
    exact context_headersOf apart_kafka fun _ member => proper_of_mem_context member
  have sent : kafkaHeadersToHttp record.headers =
      .ok (headersOf "ce-" (context "ce-" headers.map)) := by
    rw [← kept]
    apply kafkaHeadersToHttp_of_valid
    rw [kept]
    intro part member
    refine ⟨sendable_of_visible (visible part member), ?_⟩
    obtain ⟨name, listed, found⟩ := mem_context.mp member
    cases which : part.1 with
    | ceAttribute ceName =>
      rw [which] at found
      obtain ⟨rfl, _⟩ := ContextName.of_eq_ceAttribute.mp found
      have canonical := headers.canonical ("ce-" ++ ceName, part.2) listed
      simpa only [ContextName.header] using canonical
    | contentType => decide
  rw [renderCloudeventsBinary, eventParts_binary atRest, validateRecordCloudevent, present,
    validates]
  simp only [Except.map, bind, Except.bind, sent, pure, Except.pure]

/-- An event that came in in binary mode, with each of its headers once, goes out as it came exactly
if its content type is declared in one way and is not that of a structured event when it is
declared as an attribute. -/
theorem survives_iff (lawful : library.Lawful) (headers : HttpHeaders) (body : Bytes)
    (once : PresentOnce headers.map) (binary : ingressMode headers.map = .binary)
    (translated : TranslatedIngress)
    (accepted : translateCloudeventIngress library.toJsonLibrary headers.map body = .ok translated)
    (key : Option Bytes) (timestamp : Int) :
    Survives library headers.map body (recordOf translated key timestamp) ↔
      (headers.map.values "content-type" = [] ∨ headers.map.values "ce-datacontenttype" = []) ∧
        ∀ value ∈ headers.map.values "ce-datacontenttype", isStructuredValue value = false := by
  obtain ⟨visible, validates, rfl⟩ := (translate_binary binary).mp accepted
  have atRest := isStructuredAtRest_headersOf visible
  have renders (unstructured : (contentTypes (context "ce-" headers.map)).any isStructuredValue =
      false) :
      renderCloudeventsBinary library
          (recordOf ⟨(headersOf "ce_" (context "ce-" headers.map)).map fun entry =>
            (entry.1, some entry.2), body, true⟩ key timestamp) =
        .ok ⟨body, headersOf "ce-" (context "ce-" headers.map)⟩ :=
    render_of_unstructured library visible validates unstructured rfl
  have count := length_contentTypes_context headers.map
  have onceMedia := once.length_values_le (Or.inr rfl)
  have onceDeclared : (headers.map.values "ce-datacontenttype").length ≤ 1 :=
    once.length_values_le (Or.inl (isCeHeader_iff.mpr ⟨"datacontenttype", by decide⟩))
  constructor
  · rintro ⟨rendered, result, sameBody, _, types, _⟩
    have unstructured : (contentTypes (context "ce-" headers.map)).any isStructuredValue =
        false := by
      by_contra structured
      rw [Bool.not_eq_false] at structured
      rw [structured] at atRest
      obtain ⟨⟨sent, data⟩, found, result⟩ := ok_of_bind result
      obtain ⟨event, members, _, reads, _, object, _, _, dataOf⟩ :=
        eventParts_structured atRest found
      obtain ⟨_, _, result⟩ := ok_of_bind result
      cases result
      exact eventData_ne lawful reads object dataOf sameBody
    obtain rfl := Except.ok.inj ((renders unstructured).symm.trans result)
    rw [values_headersOf] at types
    have single : headers.map.values "content-type" = [] ∨
        headers.map.values "ce-datacontenttype" = [] := by
      by_contra both
      obtain ⟨media, declared⟩ := not_or.mp both
      have mediaPos := List.length_pos_iff.mpr media
      have declaredPos := List.length_pos_iff.mpr declared
      have one : (declaredContentType headers.map).toList.length ≤ 1 := by
        cases declaredContentType headers.map <;> simp
      rw [← types] at one
      omega
    refine ⟨single, fun value member => ?_⟩
    rw [contentTypes_of_single single] at unstructured
    exact Bool.eq_false_iff.mpr
      (List.any_eq_false.mp unstructured value (List.mem_append_right _ member))
  · rintro ⟨single, plain⟩
    have types := contentTypes_of_single single
    have unstructured : (contentTypes (context "ce-" headers.map)).any isStructuredValue =
        false := by
      rw [types, List.any_eq_false]
      intro value member
      rw [Bool.not_eq_true]
      rcases List.mem_append.mp member with media | declared
      · exact unstructured_of_binary binary visible onceMedia value media
      · exact plain value declared
    refine ⟨_, renders unstructured, rfl, filter_headersOf_context headers.map, ?_, ?_⟩
    · rw [values_headersOf, types, declaredContentType_of_single single onceMedia onceDeclared]
    · intro entry member
      obtain ⟨⟨part, value⟩, _, rfl⟩ := List.mem_map.mp member
      cases part with
      | ceAttribute name => exact Or.inl (isCeHeader_iff.mpr ⟨name, rfl⟩)
      | contentType => exact Or.inr rfl

end Egress

/-! ## Events as JSON text -/

/-- The reader and the writer of JSON text, with the limit of `serde_json`. The characters of a text
stand for bytes in the place of base64. -/
def jsonText : EventLibrary Unit Json where
  read bytes := (utf8Chars bytes >>= Json.parse).filter (Json.depth · ≤ 127)
  asStr
    | .string text => some text
    | _ => none
  asNumber
    | .number value => some (String.ofList (Json.renderInt value))
    | _ => none
  members
    | .object members => some members
    | _ => none
  parsePath _ := .ok ()
  select _ _ := none
  asBool
    | .bool value => some value
    | _ => none
  write value := bytesOf (String.ofList (Json.render value))
  base64Decode bytes := (utf8Chars bytes).map (·.map fun char => UInt8.ofNat char.toNat)

theorem utf8Chars_bytesOf (text : String) : utf8Chars (bytesOf text) = some text.toList := by
  unfold utf8Chars bytesOf
  have valid : text.toUTF8.IsValidUTF8 := text.isValidUTF8
  have same : (⟨text.toUTF8.data.toList.toArray⟩ : ByteArray) = text.toUTF8 := by
    rw [Array.toArray_toList]
  rw [same, String.fromUTF8?, dif_pos valid]
  rfl

theorem jsonText_read_write (value : Json) :
    jsonText.read (jsonText.write value) =
      if Json.depth value ≤ 127 then some value else none := by
  have text : utf8Chars (jsonText.write value) = some (Json.render value) := by
    rw [show jsonText.write value = bytesOf (String.ofList (Json.render value)) from rfl,
      utf8Chars_bytesOf, String.toList_ofList]
  have parsed : jsonText.read (jsonText.write value) =
      (utf8Chars (jsonText.write value) >>= Json.parse).filter (Json.depth · ≤ 127) := rfl
  rw [parsed, text, Option.bind_eq_bind, Option.bind_some, Json.parse_render]
  simp [Option.filter_some]

theorem utf8Length_toList (text : String) :
    Json.utf8Length text.toList = (bytesOf text).length := by
  rw [← Json.size_utf8Encode, ← String.toByteArray_ofList, String.ofList_toList]
  exact Array.length_toList.symm

theorem utf8Length_of_utf8Chars {bytes : Bytes} {chars : List Char}
    (decodes : utf8Chars bytes = some chars) : Json.utf8Length chars = bytes.length := by
  unfold utf8Chars String.fromUTF8? at decodes
  split at decodes
  · cases decodes
    exact utf8Length_toList _
  · cases decodes

theorem jsonText_lawful : jsonText.Lawful where
  empty := by decide
  shorter body event members name value text reads object found string := by
    obtain ⟨parsed, _⟩ := Option.filter_eq_some_iff.mp reads
    obtain ⟨chars, decodes, parses⟩ := Option.bind_eq_some_iff.mp parsed
    cases event <;> cases object
    cases value <;> cases string
    rw [← utf8Length_toList, ← utf8Length_of_utf8Chars decodes]
    exact Json.textLength_lt_of_parse parses (mem_of_lookup found)
  decoded text data decodes := by
    obtain ⟨chars, read, rfl⟩ := Option.map_eq_some_iff.mp decodes
    rw [List.length_map, ← utf8Length_of_utf8Chars read]
    exact Json.length_le_utf8Length chars
  inside event members data object found same := by
    rw [jsonText_read_write, Option.ite_none_right_eq_some] at same
    cases event <;> cases object
    obtain ⟨_, ⟨⟩⟩ := same
    have deeper := Json.depthMembers_le.mp le_rfl _ (mem_of_lookup found)
    rw [Json.depth] at deeper
    omega

def orderRequest (declared : HeaderMap) : HeaderMap :=
  [("ce-id", bytesOf "1"), ("ce-source", bytesOf "/shop"), ("ce-type", bytesOf "order"),
    ("ce-specversion", bytesOf "1.0")] ++ declared

def orderRecord (declared : List (String × Bytes)) : TranslatedIngress where
  headers :=
    ([("ce_id", bytesOf "1"), ("ce_source", bytesOf "/shop"), ("ce_type", bytesOf "order"),
      ("ce_specversion", bytesOf "1.0")] ++ declared).map fun entry => (entry.1, some entry.2)
  value := bytesOf "[]"
  isCloudEvent := true

def jsonOrder : HttpHeaders where
  map := orderRequest [("content-type", bytesOf "application/json")]
  canonical := by decide
  sendable := by decide

theorem json_order_survives :
    Survives jsonText jsonOrder.map (bytesOf "[]")
      (recordOf (orderRecord [("content-type", bytesOf "application/json")]) none 0) := by
  have once : PresentOnce jsonOrder.map := by
    unfold PresentOnce
    decide
  have binary : ingressMode jsonOrder.map = .binary := by decide
  have accepted : translateCloudeventIngress jsonText.toJsonLibrary jsonOrder.map (bytesOf "[]") =
      .ok (orderRecord [("content-type", bytesOf "application/json")]) := by decide
  have absent : jsonOrder.map.values "ce-datacontenttype" = [] := by decide
  exact (survives_iff jsonText_lawful jsonOrder (bytesOf "[]") once binary _ accepted none 0).mpr
    ⟨Or.inr absent, fun value member => by rw [absent] at member; cases member⟩

def twiceDeclared : HttpHeaders where
  map := orderRequest [("content-type", bytesOf "application/json"),
    ("ce-datacontenttype", bytesOf "application/json")]
  canonical := by decide
  sendable := by decide

def nestedEvent : HttpHeaders where
  map := orderRequest [("ce-datacontenttype", bytesOf "application/cloudevents+json")]
  canonical := by decide
  sendable := by decide

/-- A content type that is declared in both ways, with the same value, is sent twice, and an event
whose data is a structured event is taken for a structured event itself and not sent. -/
theorem declared_content_type_is_lost :
    (PresentOnce twiceDeclared.map ∧ ingressMode twiceDeclared.map = .binary ∧
      translateCloudeventIngress jsonText.toJsonLibrary twiceDeclared.map (bytesOf "[]") =
        .ok (orderRecord [("content-type", bytesOf "application/json"),
          ("content-type", bytesOf "application/json")]) ∧
      (renderCloudeventsBinary jsonText (recordOf
        (orderRecord [("content-type", bytesOf "application/json"),
          ("content-type", bytesOf "application/json")]) none 0)).map
        (fun rendered => rendered.headers.values "content-type") =
        .ok [bytesOf "application/json", bytesOf "application/json"]) ∧
    PresentOnce nestedEvent.map ∧ ingressMode nestedEvent.map = .binary ∧
      translateCloudeventIngress jsonText.toJsonLibrary nestedEvent.map (bytesOf "[]") =
        .ok (orderRecord [("content-type", bytesOf "application/cloudevents+json")]) ∧
      renderCloudeventsBinary jsonText (recordOf
        (orderRecord [("content-type", bytesOf "application/cloudevents+json")]) none 0) =
        .error .malformedJson := by
  unfold PresentOnce
  refine ⟨⟨?_, ?_, ?_, ?_⟩, ?_, ?_, ?_, ?_⟩ <;> decide

end KrabkaGateway.Outbound
