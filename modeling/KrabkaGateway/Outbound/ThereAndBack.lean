import KrabkaGateway.Outbound.Validity

/-!
# To a structured event and back

What `binary_from_structured` makes of the event that `structured_from_binary`
wrote: the headers it was made of, and the same data.
-/

namespace KrabkaGateway.Outbound

open Lib Webhook

/-- The headers of a binary event that says everything once, and nothing else. -/
structure BinaryHeaders (headers : List (String × Option Bytes)) : Prop where
  accepted : validateRecordCloudevent headers = .ok ()
  named : ∀ entry ∈ headers,
    "ce_".toList.isPrefixOf entry.1.toList = true ∨ entry.1 = "content-type"
  distinct : (headers.map Prod.fst).Nodup
  present : ∀ entry ∈ headers, entry.2.isSome
  texts : Texts headers
  reserved : ∀ entry ∈ headers,
    entry.1 ≠ "ce_data" ∧ entry.1 ≠ "ce_data_base64" ∧ entry.1 ≠ "ce_datacontenttype"

/-! ## Headers and parts -/

theorem ContextName.header_of {name : String}
    (named : "ce_".toList.isPrefixOf name.toList = true ∨ name = "content-type")
    (undeclared : name ≠ "ce_datacontenttype") :
    ∃ part, ContextName.of "ce_" name = some part ∧ part.header "ce_" = name := by
  rcases named with named | rfl
  · obtain ⟨rest, whole⟩ := List.isPrefixOf_iff_prefix.mp named
    have own : name = "ce_" ++ String.ofList rest := by
      rw [← String.toList_inj, String.toList_append, ← whole]
      exact congrArg ("ce_".toList ++ ·) String.toList_ofList.symm
    have other : String.ofList rest ≠ "datacontenttype" := by
      intro declared
      exact undeclared (by rw [own, declared]; rfl)
    exact ⟨.ceAttribute (String.ofList rest), of_eq_ceAttribute.mpr ⟨own, other⟩, own.symm⟩
  · exact ⟨.contentType, by decide, rfl⟩

theorem headersOf_context {headers : List (String × Bytes)}
    (parts : ∀ entry ∈ headers,
      ∃ part, ContextName.of "ce_" entry.1 = some part ∧ part.header "ce_" = entry.1) :
    headersOf "ce_" (context "ce_" headers) = headers := by
  induction headers with
  | nil => rfl
  | cons entry headers ih =>
    obtain ⟨key, value⟩ := entry
    obtain ⟨part, found, named⟩ := parts (key, value) List.mem_cons_self
    have rest := ih fun entry member => parts entry (List.mem_cons_of_mem _ member)
    rw [context_cons_of_some found, headersOf, List.map_cons, named]
    exact congrArg _ rest

theorem map_fst_presentHeaders {headers : List (String × Option Bytes)}
    (present : ∀ entry ∈ headers, entry.2.isSome) :
    (presentHeaders headers).map Prod.fst = headers.map Prod.fst := by
  induction headers with
  | nil => rfl
  | cons entry headers ih =>
    obtain ⟨key, value⟩ := entry
    have rest := ih fun entry member => present entry (List.mem_cons_of_mem _ member)
    obtain ⟨value, rfl⟩ := Option.isSome_iff_exists.mp (present _ List.mem_cons_self)
    exact congrArg _ rest

section Headers

variable {headers : List (String × Option Bytes)}

theorem BinaryHeaders.headersOf_context (binary : BinaryHeaders headers) :
    headersOf "ce_" (context "ce_" (presentHeaders headers)) = presentHeaders headers := by
  apply Outbound.headersOf_context
  rintro ⟨key, value⟩ member
  have listed := mem_presentHeaders.mp member
  exact ContextName.header_of (binary.named _ listed) (binary.reserved _ listed).2.2

theorem BinaryHeaders.distinct_members (binary : BinaryHeaders headers) :
    ((context "ce_" (presentHeaders headers)).map fun part => part.1.member).Nodup := by
  have names : ((context "ce_" (presentHeaders headers)).map fun part => part.1.header "ce_") =
      headers.map Prod.fst := by
    have whole := congrArg (List.map Prod.fst) binary.headersOf_context
    rwa [map_fst_presentHeaders binary.present, headersOf, List.map_map] at whole
  have parts : ((context "ce_" (presentHeaders headers)).map Prod.fst).Nodup := by
    apply List.Nodup.of_map (ContextName.header "ce_")
    rw [List.map_map]
    exact names ▸ binary.distinct
  have members := List.Nodup.map_on (f := ContextName.member) ?_ parts
  · rwa [List.map_map] at members
  · intro first firstListed second secondListed same
    obtain ⟨_, firstMember, rfl⟩ := List.mem_map.mp firstListed
    obtain ⟨_, secondMember, rfl⟩ := List.mem_map.mp secondListed
    rw [← ContextName.ofMember_member (proper_of_mem_context firstMember), same,
      ContextName.ofMember_member (proper_of_mem_context secondMember)]

variable {name : String}

theorem BinaryHeaders.lastValue_eq_some (binary : BinaryHeaders headers) {value : Bytes} :
    lastValue headers name = some value ↔
      ∃ part, (part, value) ∈ context "ce_" (presentHeaders headers) ∧ part.member = name := by
  constructor
  · exact mem_of_lastValue
  · rintro ⟨part, member, rfl⟩
    have distinct : Distinct ((context "ce_" (presentHeaders headers)).reverse.map
        fun part => (part.1.member, part.2)) := by
      rw [Distinct, List.map_map, List.map_reverse, List.nodup_reverse]
      exact binary.distinct_members
    exact distinct.lookup_eq_some.mpr
      (List.mem_map.mpr ⟨(part, value), List.mem_reverse.mpr member, rfl⟩)

theorem BinaryHeaders.member_ne (binary : BinaryHeaders headers) {part : ContextName × Bytes}
    (member : part ∈ context "ce_" (presentHeaders headers)) :
    part.1.member ≠ "data" ∧ part.1.member ≠ "data_base64" := by
  obtain ⟨name, present, found⟩ := mem_context.mp member
  obtain ⟨data, encoded, _⟩ := binary.reserved _ (mem_presentHeaders.mp present)
  cases own : part.1 with
  | contentType => decide
  | ceAttribute ceName =>
    rw [own] at found
    obtain ⟨rfl, _⟩ := ContextName.of_eq_ceAttribute.mp found
    rw [ContextName.member]
    constructor
    · rintro rfl
      exact data rfl
    · rintro rfl
      exact encoded rfl

theorem BinaryHeaders.lastValue_reserved (binary : BinaryHeaders headers)
    (reserved : name = "data" ∨ name = "data_base64") : lastValue headers name = none := by
  rw [Option.eq_none_iff_forall_ne_some]
  intro value found
  obtain ⟨part, member, named⟩ := mem_of_lastValue found
  obtain ⟨data, encoded⟩ := binary.member_ne member
  rcases reserved with rfl | rfl
  · exact data named
  · exact encoded named

end Headers

/-! ## There and back -/

section Back

variable {Query Value : Type} {library : StructuredLibrary Query Value}
variable {headers : List (String × Option Bytes)}

theorem BinaryHeaders.insertMembers_textMembers (binary : BinaryHeaders headers) :
    insertMembers [] (textMembers library headers) = textMembers library headers := by
  apply insertMembers_of_distinct
  rw [List.nil_append, Distinct, textMembers, List.map_map]
  exact binary.distinct_members

theorem BinaryHeaders.fresh (binary : BinaryHeaders headers) {name : String}
    (reserved : name = "data" ∨ name = "data_base64") :
    name ∉ (textMembers library headers).map Prod.fst := by
  intro listed
  rw [textMembers, List.map_map] at listed
  obtain ⟨part, member, rfl⟩ := List.mem_map.mp listed
  obtain ⟨data, encoded⟩ := binary.member_ne member
  exact reserved.elim data encoded

/-- The event of these headers: a member for each, and one with the data. -/
theorem BinaryHeaders.eventMembers_eq (binary : BinaryHeaders headers) (laws : library.Laws)
    (value : Bytes) :
    eventMembers library headers value = textMembers library headers ++
      [match embeddedData library headers value with
        | some document => ("data", document)
        | none => ("data_base64", library.text (library.base64Encode value))] := by
  rw [Outbound.eventMembers_eq laws, binary.insertMembers_textMembers]
  cases embeddedData library headers value with
  | none => exact insertMember_of_fresh (binary.fresh (Or.inr rfl)) _
  | some document => exact insertMember_of_fresh (binary.fresh (Or.inl rfl)) _

variable {value : Bytes} {members : List (String × Value)}

/-- The attributes of the event that is read back are the members of the headers. -/
theorem BinaryHeaders.attributes_perm (binary : BinaryHeaders headers) (laws : library.Laws)
    (same : members.Perm ((eventMembers library headers value).map (Prod.map id laws.settle))) :
    (members.filter fun entry => entry.1 ≠ "data" && entry.1 ≠ "data_base64").Perm
      (textMembers library headers) := by
  have settled : (textMembers library headers).map (Prod.map id laws.settle) =
      textMembers library headers := by
    rw [textMembers, List.map_map]
    apply List.map_congr_left
    intro part _
    exact Prod.ext rfl (laws.settle_text _)
  have kept : (textMembers library headers).filter
      (fun entry => entry.1 ≠ "data" && entry.1 ≠ "data_base64") = textMembers library headers := by
    rw [List.filter_eq_self]
    intro entry member
    have named := List.mem_map_of_mem (f := Prod.fst) member
    have data := ne_of_mem_of_not_mem named (binary.fresh (Or.inl rfl))
    have encoded := ne_of_mem_of_not_mem named (binary.fresh (Or.inr rfl))
    simp [data, encoded]
  refine (same.filter _).trans (List.Perm.of_eq ?_)
  rw [binary.eventMembers_eq laws, List.map_append, settled, List.filter_append, kept]
  cases embeddedData library headers value <;> simp

theorem attributeToKafka_textMember (laws : library.Laws) {part : ContextName}
    (proper : part.Proper) (valid : isUtf8 value = true) :
    attributeToKafka library.toEventLibrary (part.member, library.text (asText value)) =
      .ok (part.header "ce_", value) := by
  rw [attributeToKafka, scalarAttributeBytes_text (laws.asStr_text _), bytesOf_asText valid]
  cases part with
  | contentType => rfl
  | ceAttribute name =>
    have other : name ≠ "datacontenttype" := by
      rintro rfl
      exact proper rfl
    simp [Except.map, ContextName.member, ContextName.header, other]

/-- The headers that come back. -/
theorem BinaryHeaders.headers_back (binary : BinaryHeaders headers) (laws : library.Laws)
    {attributes : List (String × Value)} (same : attributes.Perm (textMembers library headers)) :
    ∃ parts, attributes.mapM (attributeToKafka library.toEventLibrary) = .ok parts ∧
      parts.Perm (presentHeaders headers) := by
  let back (entry : String × Value) : String × Bytes :=
    ((ContextName.ofMember entry.1).header "ce_", bytesOf ((library.asStr entry.2).getD ""))
  have backs : ∀ part ∈ context "ce_" (presentHeaders headers),
      back (part.1.member, library.text (asText part.2)) = (part.1.header "ce_", part.2) := by
    intro part member
    obtain ⟨_, present, _⟩ := mem_context.mp member
    simp only [back, ContextName.ofMember_member (proper_of_mem_context member), laws.asStr_text,
      Option.getD_some, bytesOf_asText (binary.texts _ present)]
  refine ⟨attributes.map back, mapM_of_ok fun entry listed => ?_, ?_⟩
  · obtain ⟨part, member, rfl⟩ := List.mem_map.mp (same.mem_iff.mp listed)
    obtain ⟨_, present, _⟩ := mem_context.mp member
    rw [backs part member]
    exact attributeToKafka_textMember laws (proper_of_mem_context member) (binary.texts _ present)
  · refine (same.map back).trans (List.Perm.of_eq ?_)
    rw [textMembers, List.map_map]
    exact (List.map_congr_left backs).trans binary.headersOf_context

def StructuredLibrary.Laws.dataBack (laws : library.Laws) (headers : List (String × Option Bytes))
    (value : Bytes) : Bytes :=
  match embeddedData library headers value with
  | some document => library.write (laws.settle document)
  | none => value

theorem BinaryHeaders.eventData_back (binary : BinaryHeaders headers) (laws : library.Laws)
    (same : members.Perm ((eventMembers library headers value).map (Prod.map id laws.settle))) :
    eventData library.toEventLibrary members = .ok (laws.dataBack headers value) := by
  rw [eventData, lookup_event laws same, lookup_event laws same, Outbound.eventMembers_eq laws,
    StructuredLibrary.Laws.dataBack]
  cases embeddedData library headers value with
  | none =>
    rw [lookup_insertMember, if_pos rfl, Option.map_some, laws.settle_text]
    simp [laws.asStr_text, laws.base64]
  | some document =>
    have absent := binary.lastValue_reserved (Or.inr rfl)
    simp [lookup_insertMember, lookup_textMembers, absent]

theorem BinaryHeaders.valid_event (binary : BinaryHeaders headers) (laws : library.Laws)
    {event : Value} (object : library.members event = some members)
    (same : members.Perm ((eventMembers library headers value).map (Prod.map id laws.settle))) :
    validateStructuredJson library.toJsonLibrary event = .ok () := by
  have complete := (validateBinaryRequired_iff.mp binary.accepted).2
  refine (validateStructuredJson_event laws binary.texts object same).mpr ⟨?_, ?_, ?_⟩
  · apply binary.lastValue_reserved
    cases embeddedData library headers value <;> simp [conflictingMember]
  · intro ceName required
    obtain ⟨last, nonempty, member⟩ := complete.1 ceName required
    exact ⟨last, binary.lastValue_eq_some.mpr ⟨_, member, rfl⟩, nonempty⟩
  · exact binary.lastValue_eq_some.mpr
      ⟨.ceAttribute "specversion", mem_of_lookup complete.2, rfl⟩

/-- A binary event that says everything once comes back from its structured form with its headers
and its data exactly if its data, where it is JSON, is not too deep. -/
theorem there_and_back_iff (laws : library.Laws) (headers : List (String × Option Bytes))
    (value : Bytes) (binary : BinaryHeaders headers) :
    (∃ body event parts data, structuredFromBinary library headers value = .ok body ∧
      library.read body = some event ∧
      binaryFromStructured library.toEventLibrary event = .ok (parts, data) ∧
      parts.Perm (presentHeaders headers) ∧
      match embeddedData library headers value with
      | some document => laws.Exact document → library.read data = some document
      | none => data = value) ↔
      laws.Fits headers value := by
  rw [structuredFromBinary_of_texts binary.texts]
  constructor
  · rintro ⟨_, event, _, _, ⟨⟩, reads, _⟩
    exact fits_of_read laws reads
  · intro fits
    obtain ⟨event, members, reads, object, same⟩ := read_event laws fits
    obtain ⟨parts, mapped, back⟩ := binary.headers_back laws (binary.attributes_perm laws same)
    refine ⟨_, event, parts, laws.dataBack headers value, rfl, reads, ?_, back, ?_⟩
    · unfold binaryFromStructured
      rw [binary.valid_event laws object same, object]
      simp only [bind, Except.bind, mapped, binary.eventData_back laws same]
      rfl
    · rw [StructuredLibrary.Laws.dataBack]
      cases embedded : embeddedData library headers value with
      | none => rfl
      | some document =>
        intro exact
        have shallow : laws.depth document ≤ laws.depthLimit := (fits document embedded).le
        dsimp only
        rw [laws.settle_exact exact, laws.read_write shallow, laws.settle_exact exact]

end Back

theorem binaryHeaders_jsonOrder : BinaryHeaders jsonOrderHeaders where
  accepted := by decide
  named := by decide
  distinct := by decide
  present := by decide
  texts := texts_jsonOrderHeaders
  reserved := by decide

theorem json_order_comes_back :
    BinaryHeaders jsonOrderHeaders ∧
      ∃ body event parts data,
        structuredFromBinary jsonEvents jsonOrderHeaders (jsonEvents.write (.object [])) =
          .ok body ∧
        jsonEvents.read body = some event ∧
        binaryFromStructured jsonEvents.toEventLibrary event = .ok (parts, data) ∧
        parts.Perm (presentHeaders jsonOrderHeaders) ∧
        match embeddedData jsonEvents jsonOrderHeaders (jsonEvents.write (.object [])) with
        | some document => jsonLaws.Exact document → jsonEvents.read data = some document
        | none => data = jsonEvents.write (.object []) := by
  refine ⟨binaryHeaders_jsonOrder,
    (there_and_back_iff jsonLaws _ _ binaryHeaders_jsonOrder).mpr fun document embedded => ?_⟩
  rw [embeddedData_jsonOrder (by decide)] at embedded
  cases embedded
  decide

/-- Data that is as deep as can be read is too deep once it is inside the event. -/
theorem deepest_data_is_not_read_back :
    BinaryHeaders jsonOrderHeaders ∧
      jsonEvents.read (jsonEvents.write (Json.nested 127 .null)) = some (Json.nested 127 .null) ∧
      ∃ body, structuredFromBinary jsonEvents jsonOrderHeaders
          (jsonEvents.write (Json.nested 127 .null)) = .ok body ∧
        jsonEvents.read body = none := by
  have deep : (Json.nested 127 .null).depth = 127 := Json.depth_nested 127 .null
  refine ⟨binaryHeaders_jsonOrder, ?_, _, structuredFromBinary_of_texts texts_jsonOrderHeaders _,
    ?_⟩
  · rw [jsonEvents_read_write, if_pos deep.le]
  · rw [Option.eq_none_iff_forall_ne_some]
    intro event reads
    have fits := fits_of_read jsonLaws reads _ (embeddedData_jsonOrder deep.le)
    exact absurd fits (Nat.not_lt.mpr deep.ge)

end KrabkaGateway.Outbound
