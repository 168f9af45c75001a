import KrabkaGateway.Outbound.RoundTrip

/-!
# Events from one gateway to another

What goes out in binary mode comes in again as it went out, as long as the
attributes are visible ASCII text and the content type is not one of CloudEvents.
An event has its required attributes in its context, whichever way it is at rest.
-/

namespace KrabkaGateway.Outbound

open Lib Webhook

/-! ## The event that a record holds -/

section Events

variable {Query Value : Type} (library : EventLibrary Query Value)

def structuredMembers (record : Payload) : Option (List (String × Value)) :=
  if isStructuredAtRest record.headers = .ok true then
    library.read (record.value.getD []) >>= library.members
  else none

def ContextName.ofMember (name : String) : ContextName :=
  if name = "datacontenttype" then .contentType else .ceAttribute name

def eventContext (record : Payload) : List (ContextName × Bytes) :=
  match structuredMembers library record with
  | some members =>
    (members.filter fun entry => entry.1 ≠ "data" && entry.1 ≠ "data_base64").filterMap
      fun entry => (scalarAttributeBytes library entry.1 entry.2).toOption.map
        fun value => (.ofMember entry.1, value)
  | none => context "ce_" (presentHeaders record.headers)

def eventContent (record : Payload) : Bytes :=
  match structuredMembers library record with
  | some members => (eventData library members).toOption.getD []
  | none => record.value.getD []

variable {library}

theorem attributeToKafka_ok {entry : String × Value} {mapped : String × Bytes}
    (result : attributeToKafka library entry = .ok mapped) :
    mapped.1 = (if entry.1 = "datacontenttype" then "content-type" else "ce_" ++ entry.1) ∧
      scalarAttributeBytes library entry.1 entry.2 = .ok mapped.2 := by
  unfold attributeToKafka at result
  cases scalar : scalarAttributeBytes library entry.1 entry.2 with
  | error error =>
    rw [scalar] at result
    cases result
  | ok value =>
    rw [scalar] at result
    cases result
    exact ⟨rfl, rfl⟩

theorem ContextName.of_member {name : String} :
    ContextName.of "ce_" (if name = "datacontenttype" then "content-type" else "ce_" ++ name) =
      some (ContextName.ofMember name) := by
  unfold ofMember
  split
  · exact (of_eq_contentType apart_kafka).mpr (Or.inl rfl)
  · exact of_eq_ceAttribute.mpr ⟨rfl, by assumption⟩

theorem context_attributes {members : List (String × Value)} {attributes : List (String × Bytes)}
    (mapped : members.mapM (attributeToKafka library) = .ok attributes) :
    context "ce_" attributes = members.filterMap fun entry =>
      (scalarAttributeBytes library entry.1 entry.2).toOption.map
        fun value => (.ofMember entry.1, value) := by
  induction members generalizing attributes with
  | nil =>
    cases mapped
    rfl
  | cons entry members ih =>
    rw [List.mapM_cons] at mapped
    obtain ⟨⟨key, value⟩, translated, mapped⟩ := ok_of_bind mapped
    obtain ⟨tail, later, mapped⟩ := ok_of_bind mapped
    cases mapped
    obtain ⟨named, scalar⟩ := attributeToKafka_ok translated
    have part : ContextName.of "ce_" key = some (.ofMember entry.1) :=
      (congrArg _ named).trans ContextName.of_member
    rw [context_cons_of_some part, ih later]
    simp [scalar, Except.toOption]

theorem eventParts_ok {record : Payload} {headers : List (String × Option Bytes)} {body : Bytes}
    (found : eventParts library record = .ok (headers, body)) :
    (isStructuredAtRest record.headers = .ok true ∨
      structuredMembers library record = none ∧ headers = record.headers ∧
        validateBinaryRequired (presentHeaders record.headers) = .ok ()) ∧
      context "ce_" (presentHeaders headers) = eventContext library record ∧
      body = eventContent library record := by
  unfold eventContext eventContent
  cases mode : isStructuredAtRest record.headers with
  | error error =>
    rw [eventParts, mode] at found
    cases found
  | ok structured =>
    cases structured with
    | false =>
      have none : structuredMembers library record = none := by
        simp [structuredMembers, mode]
      rw [eventParts_binary mode, validateRecordCloudevent] at found
      cases valid : validateBinaryRequired (presentHeaders record.headers) with
      | error error =>
        rw [valid] at found
        cases found
      | ok _ =>
        rw [valid] at found
        cases found
        rw [none]
        exact ⟨Or.inr ⟨rfl, rfl, rfl⟩, rfl, rfl⟩
    | true =>
      obtain ⟨event, members, attributes, reads, _, object, mapped, rfl, data⟩ :=
        eventParts_structured mode found
      have members : structuredMembers library record = some members := by
        simp [structuredMembers, mode, reads, object]
      rw [members, presentHeaders_some, context_attributes mapped]
      exact ⟨Or.inl rfl, rfl, by simp [data, Except.toOption]⟩

end Events

/-! ## Required attributes -/

/-- The context of an event of version 1.0. -/
def Complete (parts : List (ContextName × Bytes)) : Prop :=
  (∀ ceName ∈ requiredAttributes, ∃ value, value ≠ [] ∧ (.ceAttribute ceName, value) ∈ parts) ∧
    parts.lookup (.ceAttribute "specversion") = some (bytesOf "1.0")

variable {ceName : String}

theorem required_ne (required : ceName ∈ requiredAttributes) :
    ceName ≠ "datacontenttype" ∧ ceName ≠ "data" ∧ ceName ≠ "data_base64" := by
  revert ceName
  decide

variable {headers : List (String × Bytes)}

theorem validateBinaryRequired_eq_ok :
    validateBinaryRequired headers = .ok () ↔
      (∀ entry ∈ headers, "ce_".toList.isPrefixOf entry.1.toList = true → isUtf8 entry.2 = true) ∧
      (∀ ceName ∈ requiredAttributes,
        ∃ value, value ≠ [] ∧ ("ce_" ++ ceName, value) ∈ headers) ∧
      headers.lookup "ce_specversion" = some (bytesOf "1.0") := by
  unfold validateBinaryRequired
  have texts : (headers.find? fun entry =>
      "ce_".toList.isPrefixOf entry.1.toList && !isUtf8 entry.2) = none ↔
      ∀ entry ∈ headers, "ce_".toList.isPrefixOf entry.1.toList = true → isUtf8 entry.2 = true := by
    rw [List.find?_eq_none]
    apply forall₂_congr
    intro entry _
    cases "ce_".toList.isPrefixOf entry.1.toList <;> cases isUtf8 entry.2 <;> simp
  have required : (requiredAttributes.find? fun ceName =>
      !headers.any fun entry => entry.1 = "ce_" ++ ceName && entry.2 ≠ []) = none ↔
      ∀ ceName ∈ requiredAttributes,
        ∃ value, value ≠ [] ∧ ("ce_" ++ ceName, value) ∈ headers := by
    rw [List.find?_eq_none]
    apply forall₂_congr
    intro ceName _
    rw [Bool.not_eq_true', Bool.not_eq_false, List.any_eq_true]
    constructor
    · rintro ⟨⟨name, value⟩, member, own⟩
      simp only [Bool.and_eq_true, decide_eq_true_eq] at own
      obtain ⟨rfl, nonempty⟩ := own
      exact ⟨value, nonempty, member⟩
    · rintro ⟨value, nonempty, member⟩
      exact ⟨_, member, by simp [nonempty]⟩
  rw [← texts, ← required]
  split
  · rename_i found
    exact ⟨nofun, fun all => absurd (found.symm.trans all.1) (Option.some_ne_none _)⟩
  · rename_i noText
    split
    · rename_i found
      exact ⟨nofun, fun all => absurd (found.symm.trans all.2.1) (Option.some_ne_none _)⟩
    · rename_i complete
      split
      · rename_i version
        exact ⟨fun _ => ⟨noText, complete, version⟩, fun _ => rfl⟩
      · rename_i version
        exact ⟨nofun, fun all => absurd all.2.2 version⟩

variable {value : Bytes}

theorem mem_context_ceAttribute {front : String} (other : ceName ≠ "datacontenttype") :
    (.ceAttribute ceName, value) ∈ context front headers ↔ (front ++ ceName, value) ∈ headers := by
  rw [mem_context]
  constructor
  · rintro ⟨name, member, found⟩
    obtain ⟨rfl, _⟩ := ContextName.of_eq_ceAttribute.mp found
    exact member
  · intro member
    exact ⟨_, member, ContextName.of_eq_ceAttribute.mpr ⟨rfl, other⟩⟩

theorem lookup_context {front : String} (other : ceName ≠ "datacontenttype")
    (headers : List (String × Bytes)) :
    (context front headers).lookup (.ceAttribute ceName) = headers.lookup (front ++ ceName) := by
  induction headers with
  | nil => rfl
  | cons entry headers ih =>
    obtain ⟨name, value⟩ := entry
    by_cases named : name = front ++ ceName
    · have found := ContextName.of_eq_ceAttribute.mpr ⟨named, other⟩
      rw [context_cons_of_some found]
      simp [named]
    · have skipped : (front ++ ceName == name) = false := by simpa using Ne.symm named
      rw [List.lookup_cons, skipped]
      cases found : ContextName.of front name with
      | none =>
        rw [context_cons_of_none found]
        exact ih
      | some part =>
        have apart : (ContextName.ceAttribute ceName == part) = false := by
          rw [beq_eq_false_iff_ne]
          rintro rfl
          exact named (ContextName.of_eq_ceAttribute.mp found).1
        rw [context_cons_of_some found, List.lookup_cons, apart]
        exact ih

/-- The check of a binary event is about its context. -/
theorem validateBinaryRequired_iff :
    validateBinaryRequired headers = .ok () ↔
      (∀ entry ∈ headers, "ce_".toList.isPrefixOf entry.1.toList = true → isUtf8 entry.2 = true) ∧
        Complete (context "ce_" headers) := by
  have version : "ce_" ++ "specversion" = "ce_specversion" := by decide
  rw [validateBinaryRequired_eq_ok, Complete, lookup_context (by decide), version]
  apply and_congr_right'
  apply and_congr_left'
  apply forall₂_congr
  intro ceName required
  simp only [mem_context_ceAttribute (required_ne required).1]

theorem isUtf8_of_visible (visible : isVisible value = true) : isUtf8 value = true := by
  have text := utf8Chars_visible visible
  unfold utf8Chars at text
  unfold isUtf8
  obtain ⟨_, decoded, _⟩ := Option.map_eq_some_iff.mp text
  rw [decoded]
  rfl

section Structured

variable {Query Value : Type} {library : EventLibrary Query Value}

variable {members : List (String × Value)}

theorem validateStructuredJson_eq_ok {json : JsonLibrary Query Value} {event : Value}
    (object : json.members event = some members) :
    validateStructuredJson json event = .ok () ↔
      ¬((members.lookup "data").isSome ∧ (members.lookup "data_base64").isSome) ∧
      (∀ ceName ∈ requiredAttributes, ∃ value text,
        members.lookup ceName = some value ∧ json.asStr value = some text ∧ text ≠ "") ∧
      ∃ value, members.lookup "specversion" = some value ∧ json.asStr value = some "1.0" := by
  have required : (requiredAttributes.find? fun ceName =>
      !(members.lookup ceName >>= json.asStr).any (· ≠ "")) = none ↔
      ∀ ceName ∈ requiredAttributes, ∃ value text,
        members.lookup ceName = some value ∧ json.asStr value = some text ∧ text ≠ "" := by
    rw [List.find?_eq_none]
    apply forall₂_congr
    intro ceName _
    rw [Bool.not_eq_true', Bool.not_eq_false, Option.any_eq_true]
    constructor
    · rintro ⟨text, found, nonempty⟩
      obtain ⟨value, member, string⟩ := Option.bind_eq_some_iff.mp found
      exact ⟨value, text, member, string, by simpa using nonempty⟩
    · rintro ⟨value, text, member, string, nonempty⟩
      exact ⟨text, Option.bind_eq_some_iff.mpr ⟨value, member, string⟩, by simpa using nonempty⟩
  have version : (members.lookup "specversion" >>= json.asStr) = some "1.0" ↔
      ∃ value, members.lookup "specversion" = some value ∧ json.asStr value = some "1.0" :=
    Option.bind_eq_some_iff
  rw [← required, ← version]
  simp only [validateStructuredJson, object]
  split
  · rename_i conflict
    exact ⟨nofun, fun all => absurd conflict all.1⟩
  · rename_i apart
    split
    · rename_i found
      exact ⟨nofun, fun all => absurd (found.symm.trans all.2.1) (Option.some_ne_none _)⟩
    · rename_i complete
      split
      · rename_i version
        exact ⟨fun _ => ⟨apart, complete, version⟩, fun _ => rfl⟩
      · rename_i version
        exact ⟨nofun, fun all => absurd all.2.2 version⟩

variable {value : Value} {text : String}

theorem scalarAttributeBytes_text (string : library.asStr value = some text) (name : String) :
    scalarAttributeBytes library name value = .ok (bytesOf text) := by
  simp only [scalarAttributeBytes, string]

theorem lookup_filter {keep : String × Value → Bool} {name : String}
    (kept : ∀ value, keep (name, value) = true) (entries : List (String × Value)) :
    (entries.filter keep).lookup name = entries.lookup name := by
  induction entries with
  | nil => rfl
  | cons entry entries ih =>
    obtain ⟨key, value⟩ := entry
    by_cases own : name = key
    · subst own
      rw [List.filter_cons_of_pos (kept value)]
      simp
    · have skipped : (name == key) = false := by simpa using own
      by_cases keeps : keep (key, value) = true
      · rw [List.filter_cons_of_pos keeps, List.lookup_cons, List.lookup_cons, skipped]
        exact ih
      · rw [List.filter_cons_of_neg keeps, List.lookup_cons, skipped]
        exact ih

theorem lookup_attributes (other : ceName ≠ "datacontenttype")
    (string : library.asStr value = some text) {attributes : List (String × Bytes)}
    (mapped : members.mapM (attributeToKafka library) = .ok attributes)
    (found : members.lookup ceName = some value) :
    attributes.lookup ("ce_" ++ ceName) = some (bytesOf text) := by
  induction members generalizing attributes with
  | nil => cases found
  | cons entry members ih =>
    rw [List.mapM_cons] at mapped
    obtain ⟨⟨key, bytes⟩, translated, mapped⟩ := ok_of_bind mapped
    obtain ⟨tail, later, mapped⟩ := ok_of_bind mapped
    cases mapped
    obtain ⟨name, first⟩ := entry
    obtain ⟨named, scalar⟩ := attributeToKafka_ok translated
    simp only at named scalar
    by_cases own : ceName = name
    · subst own
      obtain rfl : first = value := by simpa using found
      rw [scalarAttributeBytes_text string, Except.ok.injEq] at scalar
      rw [if_neg other] at named
      simp [named, scalar]
    · have skipped : (ceName == name) = false := by simpa using own
      have apart : ("ce_" ++ ceName == key) = false := by
        rw [beq_eq_false_iff_ne]
        rintro rfl
        split at named
        · have media : (ContextName.ceAttribute ceName).header "ce_" = "content-type" := named
          cases (ContextName.header_eq apart_kafka).mp media
        · exact own ((String.append_right_inj _).mp named)
      rw [List.lookup_cons, skipped] at found
      rw [List.lookup_cons, apart]
      exact ih later found

theorem bytesOf_ne_nil (nonempty : text ≠ "") : bytesOf text ≠ [] := by
  intro empty
  have size : text.toUTF8.size = 0 := congrArg List.length empty
  exact nonempty (String.utf8ByteSize_eq_zero_iff.mp size)

/-- The event that a record holds is complete, whichever way it is at rest. -/
theorem complete_of_eventParts {record : Payload} {headers : List (String × Option Bytes)}
    {body : Bytes} (found : eventParts library record = .ok (headers, body)) :
    Complete (context "ce_" (presentHeaders headers)) := by
  rcases (eventParts_ok found).1 with structured | ⟨_, rfl, valid⟩
  · obtain ⟨event, members, attributes, _, valid, object, mapped, rfl, _⟩ :=
      eventParts_structured structured found
    obtain ⟨_, required, version⟩ := (validateStructuredJson_eq_ok object).mp valid
    have present : ∀ ceName ∈ requiredAttributes, ∀ value text,
        members.lookup ceName = some value → library.asStr value = some text →
        attributes.lookup ("ce_" ++ ceName) = some (bytesOf text) := by
      intro ceName member value text own string
      obtain ⟨media, data, encoded⟩ := required_ne member
      refine lookup_attributes media string mapped ?_
      rw [lookup_filter (fun _ => by simp [data, encoded]), own]
    rw [presentHeaders_some, Complete, lookup_context (by decide)]
    refine ⟨fun ceName member => ?_, ?_⟩
    · obtain ⟨value, text, own, string, nonempty⟩ := required ceName member
      refine ⟨bytesOf text, bytesOf_ne_nil nonempty, ?_⟩
      rw [mem_context_ceAttribute (required_ne member).1]
      exact mem_of_lookup (present _ member _ _ own string)
    · obtain ⟨value, own, string⟩ := version
      exact present _ (by decide) _ _ own string
  · exact (validateBinaryRequired_iff.mp valid).2

end Structured

/-! ## Out and in -/

structure DistinctLowerCase (names : List String) : Prop where
  distinct : names.Nodup
  lower : ∀ name ∈ names, name.toList.map Char.toLower = name.toList

theorem headerName_of_lower {name : String} (valid : (headerName name).isSome)
    (lower : name.toList.map Char.toLower = name.toList) : headerName name = some name := by
  unfold headerName at valid ⊢
  split at valid
  · rw [if_pos (by assumption), lower, String.ofList_toList]
  · cases valid

section Relay

variable {Query Value : Type} {library : EventLibrary Query Value}

variable {headers : List (String × Option Bytes)}

/-- The parts of an event that has lower-case names are in lower case. -/
theorem lower_of_eventParts {record : Payload} {body : Bytes}
    (names : DistinctLowerCase (record.headers.map Prod.fst))
    (inside : ∀ members, structuredMembers library record = some members →
      DistinctLowerCase (members.map Prod.fst))
    (found : eventParts library record = .ok (headers, body)) :
    ∀ entry ∈ headers, entry.1.toList.map Char.toLower = entry.1.toList := by
  rcases (eventParts_ok found).1 with structured | ⟨_, rfl, _⟩
  · obtain ⟨event, members, attributes, reads, _, object, mapped, rfl, _⟩ :=
      eventParts_structured structured found
    have own := inside members (by simp [structuredMembers, structured, reads, object])
    intro entry member
    obtain ⟨⟨key, value⟩, listed, rfl⟩ := List.mem_map.mp member
    obtain ⟨⟨name, source⟩, kept, translated⟩ := mem_of_mapM_ok mapped _ listed
    have lower := own.lower name
      (List.mem_map_of_mem (f := Prod.fst) (List.mem_filter.mp kept).1)
    obtain ⟨rfl, _⟩ := attributeToKafka_ok translated
    simp only
    split
    · decide
    · rw [String.toList_append, List.map_append, lower]
      rfl
  · exact fun entry member => names.lower _ (List.mem_map_of_mem member)

/-- What is rendered of an event with lower-case names: its context. -/
theorem kafkaHeadersToHttp_of_lower {rendered : HeaderMap}
    (lower : ∀ entry ∈ headers, entry.1.toList.map Char.toLower = entry.1.toList)
    (result : kafkaHeadersToHttp headers = .ok rendered) :
    rendered = headersOf "ce-" (context "ce_" (presentHeaders headers)) := by
  have valid := valid_of_kafkaHeadersToHttp result
  have sent : kafkaHeadersToHttp headers =
      .ok (headersOf "ce-" (context "ce_" (presentHeaders headers))) := by
    apply kafkaHeadersToHttp_of_valid
    intro part member
    obtain ⟨value, named⟩ := valid part member
    refine ⟨value, headerName_of_lower named ?_⟩
    obtain ⟨name, present, own⟩ := mem_context.mp member
    have whole := lower _ (mem_presentHeaders.mp present)
    cases which : part.1 with
    | contentType => decide
    | ceAttribute ceName =>
      rw [which] at own
      obtain ⟨rfl, _⟩ := ContextName.of_eq_ceAttribute.mp own
      simp only [String.toList_append, List.map_append] at whole
      rw [ContextName.header, String.toList_append, List.map_append,
        (List.append_inj whole (by simp)).2]
      rfl
  exact (Except.ok.inj (sent.symm.trans result)).symm

/-- An event with distinct lower-case names that is rendered in binary mode is taken by another
gateway, with the same context and data, exactly if its attributes and content types are visible
ASCII text and its content type is not one of CloudEvents. -/
theorem relayed_iff (record : Payload) (names : DistinctLowerCase (record.headers.map Prod.fst))
    (inside : ∀ members, structuredMembers library record = some members →
      DistinctLowerCase (members.map Prod.fst))
    (rendered : RenderedDelivery)
    (result : renderCloudeventsBinary library record = .ok rendered) :
    (ingressMode rendered.headers = .binary ∧
      ∃ translated,
        translateCloudeventIngress library.toJsonLibrary rendered.headers rendered.body =
          .ok translated ∧
        context "ce_" (presentHeaders translated.headers) = eventContext library record ∧
        translated.value = eventContent library record) ↔
      (∀ part ∈ eventContext library record, isVisible part.2 = true) ∧
        ∀ first, (contentTypes (eventContext library record)).head? = some first →
          isCloudEventsMediaType first = false := by
  obtain ⟨⟨headers, body⟩, parts, result⟩ := ok_of_bind result
  obtain ⟨sent, sends, result⟩ := ok_of_bind result
  cases result
  obtain rfl := kafkaHeadersToHttp_of_lower (lower_of_eventParts names inside parts) sends
  obtain ⟨_, same, rfl⟩ := eventParts_ok parts
  rw [← same]
  have complete := complete_of_eventParts parts
  have proper : ∀ part ∈ context "ce_" (presentHeaders headers), part.1.Proper :=
    fun _ member => proper_of_mem_context member
  generalize context "ce_" (presentHeaders headers) = event at *
  have arrives := context_headersOf apart_http proper
  have kept := context_headersOf apart_kafka proper
  have mode : ingressMode (headersOf "ce-" event) = .binary ↔
      ∀ first, (contentTypes event).head? = some first → isVisible first = true →
        isCloudEventsMediaType first = false := by
    rw [ingressMode_eq_binary, values_headersOf]
    apply and_iff_left
    obtain ⟨value, _, present⟩ := complete.1 "id" (by decide)
    exact List.any_eq_true.mpr
      ⟨_, List.mem_map_of_mem present, isCeHeader_iff.mpr ⟨"id", rfl⟩⟩
  have listed : ∀ first, (contentTypes event).head? = some first →
      (.contentType, first) ∈ event := by
    intro first head
    obtain ⟨⟨name, value⟩, member, own⟩ := List.mem_filterMap.mp (List.mem_of_head? head)
    split at own
    · rename_i media
      cases own
      rwa [← media]
    · cases own
  constructor
  · rintro ⟨binary, translated, accepted, _⟩
    have visible := ((translate_binary binary).mp accepted).1
    rw [arrives] at visible
    exact ⟨visible, fun first head => mode.mp binary first head (visible _ (listed first head))⟩
  · rintro ⟨visible, plain⟩
    have binary := mode.mpr fun first head _ => plain first head
    have validates : validateBinaryRequired (headersOf "ce_" event) = .ok () := by
      rw [validateBinaryRequired_iff, kept]
      refine ⟨fun entry member _ => ?_, complete⟩
      obtain ⟨part, own, rfl⟩ := List.mem_map.mp member
      exact isUtf8_of_visible (visible part own)
    refine ⟨binary, ⟨(headersOf "ce_" event).map fun entry => (entry.1, some entry.2),
      eventContent library record, true⟩, (translate_binary binary).mpr ?_, ?_, rfl⟩
    · rw [arrives]
      exact ⟨visible, validates, rfl⟩
    · rw [presentHeaders_some, kept]

end Relay

def orderPayload (declared : List (String × Bytes)) : Payload :=
  recordOf (orderRecord declared) none 0

theorem json_order_is_relayed :
    ∃ rendered, renderCloudeventsBinary jsonText
        (orderPayload [("content-type", bytesOf "application/json")]) = .ok rendered ∧
      ingressMode rendered.headers = .binary ∧
      ∃ translated, translateCloudeventIngress jsonText.toJsonLibrary rendered.headers rendered.body =
          .ok translated ∧
        context "ce_" (presentHeaders translated.headers) =
          eventContext jsonText (orderPayload [("content-type", bytesOf "application/json")]) ∧
        translated.value =
          eventContent jsonText (orderPayload [("content-type", bytesOf "application/json")]) := by
  let record := orderPayload [("content-type", bytesOf "application/json")]
  have names : DistinctLowerCase (record.headers.map Prod.fst) :=
    ⟨by decide, by decide⟩
  have unstructured : structuredMembers jsonText record = none := by decide
  have result : renderCloudeventsBinary jsonText record =
      .ok ⟨bytesOf "[]", orderRequest [("content-type", bytesOf "application/json")]⟩ := by
    decide
  have visible : ∀ part ∈ eventContext jsonText record, isVisible part.2 = true := by
    decide
  have types : (contentTypes (eventContext jsonText record)).head? =
      some (bytesOf "application/json") := by decide
  have plain : isCloudEventsMediaType (bytesOf "application/json") = false := by decide
  refine ⟨_, result, (relayed_iff record names ?_ _ result).mpr
    ⟨visible, fun first head => ?_⟩⟩
  · intro members structured
    rw [unstructured] at structured
    cases structured
  · rw [types] at head
    cases head
    exact plain

/-- An attribute that is not ASCII is sent, and refused where it comes in. -/
theorem non_ascii_attribute_is_refused :
    ∃ rendered, renderCloudeventsBinary jsonText
        (orderPayload [("ce_subject", bytesOf "é")]) = .ok rendered ∧
      DistinctLowerCase ((orderPayload [("ce_subject", bytesOf "é")]).headers.map Prod.fst) ∧
      translateCloudeventIngress jsonText.toJsonLibrary rendered.headers rendered.body =
        .error 400 := by
  refine ⟨⟨bytesOf "[]", orderRequest [("ce-subject", bytesOf "é")]⟩, ?_, ⟨?_, ?_⟩, ?_⟩ <;>
    decide

end KrabkaGateway.Outbound
