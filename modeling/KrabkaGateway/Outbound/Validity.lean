import KrabkaGateway.Outbound.Structured

/-!
# Valid structured events

When the structured rendering of an accepted binary event passes the check of
structured events. The binary check looks for any header under a name, or the
first; the event has the last one.
-/

namespace KrabkaGateway.Outbound

open Lib Webhook

variable {value : Bytes}

theorem asText_eq (valid : isUtf8 value = true) {text : String} :
    asText value = text ↔ value = bytesOf text := by
  constructor
  · rintro rfl
    exact (bytesOf_asText valid).symm
  · rintro rfl
    exact asText_bytesOf text

variable {part : ContextName}

theorem ContextName.ofMember_member (proper : part.Proper) :
    ContextName.ofMember part.member = part := by
  cases part with
  | contentType => rfl
  | ceAttribute name =>
    rw [ofMember, member, if_neg]
    rintro rfl
    exact proper rfl

variable {headers : List (String × Option Bytes)}

theorem mem_of_lastValue {name : String} (found : lastValue headers name = some value) :
    ∃ part, (part, value) ∈ context "ce_" (presentHeaders headers) ∧ part.member = name := by
  have member : (name, value) ∈ (context "ce_" (presentHeaders headers)).reverse.map
      fun part => (part.1.member, part.2) := mem_of_lookup found
  obtain ⟨⟨part, _⟩, listed, same⟩ := List.mem_map.mp member
  cases same
  exact ⟨part, List.mem_reverse.mp listed, rfl⟩

theorem lastValue_ne_none (member : (part, value) ∈ context "ce_" (presentHeaders headers)) :
    lastValue headers part.member ≠ none := by
  rw [lastValue, Ne, List.lookup_eq_none_iff]
  intro absent
  have own := absent (part.member, value)
    (List.mem_map.mpr ⟨(part, value), List.mem_reverse.mpr member, rfl⟩)
  simp at own

section Valid

variable {Query Value : Type} {library : StructuredLibrary Query Value}

variable {headers : List (String × Option Bytes)} {value : Bytes} {members : List (String × Value)}

theorem attribute_text (laws : library.Laws)
    (same : members.Perm ((eventMembers library headers value).map (Prod.map id laws.settle)))
    {name : String} (other : name ≠ "data" ∧ name ≠ "data_base64") {text : String} :
    (∃ found, members.lookup name = some found ∧ library.asStr found = some text) ↔
      ∃ last, lastValue headers name = some last ∧ asText last = text := by
  rw [lookup_attribute laws same other]
  cases lastValue headers name with
  | none => simp
  | some last => simp [laws.asStr_text]

def conflictingMember (embedded : Option Value) : String :=
  if embedded.isSome then "data_base64" else "data"

theorem conflicting_iff (laws : library.Laws)
    (same : members.Perm ((eventMembers library headers value).map (Prod.map id laws.settle))) :
    (members.lookup "data").isSome ∧ (members.lookup "data_base64").isSome ↔
      (lastValue headers (conflictingMember (embeddedData library headers value))).isSome := by
  rw [lookup_event laws same, lookup_event laws same, eventMembers_eq laws]
  cases embeddedData library headers value <;>
    simp [conflictingMember, lookup_insertMember, lookup_textMembers]

theorem validateStructuredJson_event (laws : library.Laws) (texts : Texts headers) {event : Value}
    (object : library.members event = some members)
    (same : members.Perm ((eventMembers library headers value).map (Prod.map id laws.settle))) :
    validateStructuredJson library.toJsonLibrary event = .ok () ↔
      lastValue headers (conflictingMember (embeddedData library headers value)) = none ∧
      (∀ ceName ∈ requiredAttributes, ∃ last, lastValue headers ceName = some last ∧ last ≠ []) ∧
      lastValue headers "specversion" = some (bytesOf "1.0") := by
  have utf8 : ∀ {name last}, lastValue headers name = some last → isUtf8 last = true := by
    intro name last found
    obtain ⟨part, listed, _⟩ := mem_of_lastValue found
    obtain ⟨key, present, _⟩ := mem_context.mp listed
    exact texts _ present
  rw [validateStructuredJson_eq_ok object, conflicting_iff laws same, Option.not_isSome_iff_eq_none]
  refine and_congr_right' (and_congr ?_ ?_)
  · apply forall₂_congr
    intro ceName required
    obtain ⟨_, other⟩ := required_ne required
    constructor
    · rintro ⟨found, text, member, string, nonempty⟩
      obtain ⟨last, own, rfl⟩ := (attribute_text laws same other).mp ⟨found, member, string⟩
      refine ⟨last, own, ?_⟩
      rintro rfl
      exact nonempty ((asText_eq (utf8 own)).mpr rfl)
    · rintro ⟨last, own, nonempty⟩
      obtain ⟨found, member, string⟩ := (attribute_text laws same other).mpr ⟨last, own, rfl⟩
      refine ⟨found, _, member, string, fun empty => nonempty ?_⟩
      exact (asText_eq (utf8 own)).mp empty
  · rw [attribute_text laws same (by decide)]
    constructor
    · rintro ⟨last, own, version⟩
      rw [own, (asText_eq (utf8 own)).mp version]
    · intro own
      exact ⟨_, own, asText_bytesOf "1.0"⟩

/-- The headers of a binary event that passes its check, all of them text, are rendered as a valid
structured event exactly if the last header of each required attribute is not empty, the last one
for the version is 1.0, no header takes the place of the other way to hold data, and JSON data is
not too deep. -/
theorem rendered_event_valid_iff (laws : library.Laws) (headers : List (String × Option Bytes))
    (value : Bytes) (texts : Texts headers) (accepted : validateRecordCloudevent headers = .ok ()) :
    (∃ body event, structuredFromBinary library headers value = .ok body ∧
      library.read body = some event ∧
      validateStructuredJson library.toJsonLibrary event = .ok ()) ↔
      (∀ ceName ∈ requiredAttributes, lastValue headers ceName ≠ some []) ∧
      lastValue headers "specversion" = some (bytesOf "1.0") ∧
      lastValue headers (conflictingMember (embeddedData library headers value)) = none ∧
      laws.Fits headers value := by
  have present : ∀ ceName ∈ requiredAttributes, lastValue headers ceName ≠ none := by
    intro ceName required
    obtain ⟨_, _, member⟩ := (validateBinaryRequired_iff.mp accepted).2.1 ceName required
    exact lastValue_ne_none member
  have nonempty : (∀ ceName ∈ requiredAttributes, lastValue headers ceName ≠ some []) ↔
      ∀ ceName ∈ requiredAttributes, ∃ last, lastValue headers ceName = some last ∧ last ≠ [] := by
    apply forall₂_congr
    intro ceName required
    obtain ⟨last, own⟩ := Option.ne_none_iff_exists'.mp (present ceName required)
    simp [own]
  rw [nonempty, structuredFromBinary_of_texts texts]
  constructor
  · rintro ⟨_, event, ⟨⟩, reads, valid⟩
    have fits := fits_of_read laws reads
    obtain ⟨own, members, readsOwn, object, same⟩ := read_event laws fits
    obtain rfl : own = event := Option.some.inj (readsOwn.symm.trans reads)
    obtain ⟨apart, complete, version⟩ :=
      (validateStructuredJson_event laws texts object same).mp valid
    exact ⟨complete, version, apart, fits⟩
  · rintro ⟨complete, version, apart, fits⟩
    obtain ⟨event, members, reads, object, same⟩ := read_event laws fits
    exact ⟨_, event, rfl, reads,
      (validateStructuredJson_event laws texts object same).mpr ⟨apart, complete, version⟩⟩

end Valid

theorem json_order_renders_valid :
    Texts jsonOrderHeaders ∧ validateRecordCloudevent jsonOrderHeaders = .ok () ∧
      ∃ body event,
        structuredFromBinary jsonEvents jsonOrderHeaders (jsonEvents.write (.object [])) =
          .ok body ∧
        jsonEvents.read body = some event ∧
        validateStructuredJson jsonEvents.toJsonLibrary event = .ok () := by
  have accepted : validateRecordCloudevent jsonOrderHeaders = .ok () := by decide
  have embedded : embeddedData jsonEvents jsonOrderHeaders (jsonEvents.write (.object [])) =
      some (.object []) := embeddedData_jsonOrder (by decide)
  refine ⟨texts_jsonOrderHeaders, accepted,
    (rendered_event_valid_iff jsonLaws _ _ texts_jsonOrderHeaders accepted).mpr
      ⟨by decide, by decide, ?_, ?_⟩⟩
  · rw [embedded]
    decide
  · intro data found
    rw [embedded] at found
    cases found
    decide

/-- The check is content with the first `ce_id`; the event has the last one, which is empty. -/
theorem repeated_attribute_renders_invalid :
    let headers := orderAttributes ++ [("ce_id", some [])]
    Texts headers ∧ validateRecordCloudevent headers = .ok () ∧
      ∃ body event, structuredFromBinary jsonEvents headers [] = .ok body ∧
        jsonEvents.read body = some event ∧
        validateStructuredJson jsonEvents.toJsonLibrary event =
          .error (.missingAttribute "id") := by
  have texts : Texts (orderAttributes ++ [("ce_id", some [])]) := by
    unfold Texts
    decide
  let event : List (String × Json) :=
    [("id", .string ""), ("source", .string "/orders"), ("type", .string "order.new"),
      ("specversion", .string "1.0"), ("data_base64", .string "")]
  have rendered : structuredFromBinary jsonEvents (orderAttributes ++ [("ce_id", some [])]) [] =
      .ok (jsonEvents.write (.object event)) := structuredFromBinary_of_texts texts []
  have reads : jsonEvents.read (jsonEvents.write (.object event)) = some (.object event) :=
    (jsonEvents_read_write _).trans (if_pos (by decide))
  exact ⟨texts, by decide, _, _, rendered, reads, rfl⟩

end KrabkaGateway.Outbound
