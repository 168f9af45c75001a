import Mathlib.Data.Bool.Basic
import KrabkaGateway.Outbound.ThereAndBack

/-!
# To a binary event and back

What `structured_from_binary` makes of the headers and the body that
`binary_from_structured` took from an event: the attributes as they were. The data
is data again only where the event says that it is JSON; an event without a data
content type has it as base64 afterwards.
-/

namespace KrabkaGateway.Outbound

open Lib Webhook

theorem isUtf8_bytesOf (text : String) : isUtf8 (bytesOf text) = true := by
  by_contra invalid
  have undecoded := utf8Chars_of_not_isUtf8 (Bool.eq_false_of_not_eq_true invalid)
  rw [utf8Chars_bytesOf] at undecoded
  cases undecoded

theorem ContextName.member_ofMember (name : String) :
    (ContextName.ofMember name).member = name := by
  unfold ofMember
  split
  · rename_i declared
    exact declared.symm
  · rfl

theorem ContextName.proper_ofMember (name : String) : (ContextName.ofMember name).Proper :=
  proper_of of_member

section ViaBinary

variable {Query Value : Type} {library : StructuredLibrary Query Value}

/-- A valid structured event with JSON data whose attributes are all strings. What it says of the
type of its data, if anything, is that it is JSON. -/
structure JsonDataEvent (laws : library.Laws) (event : Value) (members : List (String × Value))
    (data : Value) : Prop where
  object : library.members event = some members
  distinct : Distinct members
  accepted : validateStructuredJson library.toJsonLibrary event = .ok ()
  strings : ∀ entry ∈ members, entry.1 ≠ "data" → ∃ text, entry.2 = library.text text
  holds : members.lookup "data" = some data
  exact : laws.Exact data
  json : ∀ mediaType, members.lookup "datacontenttype" = some (library.text mediaType) →
    isJsonMediaType mediaType.toList = true

def attributesOf (members : List (String × Value)) : List (String × Value) :=
  members.filter fun entry => entry.1 ≠ "data" && entry.1 ≠ "data_base64"

variable (library) in
def attributeContext (members : List (String × Value)) : List (ContextName × Bytes) :=
  (attributesOf members).map fun entry =>
    (.ofMember entry.1, bytesOf ((library.asStr entry.2).getD ""))

variable (library) in
/-- The record headers that say it. -/
def attributeHeaders (members : List (String × Value)) : List (String × Option Bytes) :=
  (headersOf "ce_" (attributeContext library members)).map fun entry => (entry.1, some entry.2)

theorem context_attributeHeaders (members : List (String × Value)) :
    context "ce_" (presentHeaders (attributeHeaders library members)) =
      attributeContext library members := by
  rw [attributeHeaders, presentHeaders_some]
  apply context_headersOf apart_kafka
  intro part member
  obtain ⟨entry, _, rfl⟩ := List.mem_map.mp member
  exact ContextName.proper_ofMember entry.1

theorem texts_attributeHeaders (members : List (String × Value)) :
    Texts (attributeHeaders library members) := by
  intro entry member
  rw [attributeHeaders, presentHeaders_some, headersOf, attributeContext, List.map_map] at member
  obtain ⟨_, _, rfl⟩ := List.mem_map.mp member
  exact isUtf8_bytesOf _

section Event

variable {laws : library.Laws} {event data : Value} {members : List (String × Value)}

variable (json : JsonDataEvent laws event members data)
include json

theorem JsonDataEvent.lookup_base64 : members.lookup "data_base64" = none := by
  have apart := ((validateStructuredJson_eq_ok json.object).mp json.accepted).1
  by_contra conflict
  exact apart ⟨by rw [json.holds]; rfl, Option.isSome_iff_ne_none.mpr conflict⟩

theorem JsonDataEvent.text_of_attribute {entry : String × Value}
    (member : entry ∈ attributesOf members) : ∃ text, entry.2 = library.text text := by
  obtain ⟨listed, kept⟩ := List.mem_filter.mp member
  rw [Bool.and_eq_true, decide_eq_true_eq] at kept
  exact json.strings entry listed kept.1

/-- Every attribute becomes a header, and the data is the body. -/
theorem JsonDataEvent.binaryFromStructured_eq :
    binaryFromStructured library.toEventLibrary event =
      .ok (headersOf "ce_" (attributeContext library members), library.write data) := by
  have mapped : (attributesOf members).mapM (attributeToKafka library.toEventLibrary) =
      .ok (headersOf "ce_" (attributeContext library members)) := by
    rw [headersOf, attributeContext, List.map_map]
    refine mapM_of_ok fun entry member => ?_
    obtain ⟨name, value⟩ := entry
    obtain ⟨text, rfl⟩ := json.text_of_attribute member
    have own := attributeToKafka_textMember laws (ContextName.proper_ofMember name)
      (isUtf8_bytesOf text)
    rw [ContextName.member_ofMember, asText_bytesOf] at own
    rw [own, Function.comp_apply, laws.asStr_text]
    rfl
  have body : eventData library.toEventLibrary members = .ok (library.write data) := by
    simp only [eventData, json.lookup_base64, json.holds]
  unfold binaryFromStructured
  rw [json.accepted, json.object]
  rw [attributesOf] at mapped
  simp only [bind, Except.bind, mapped, body]
  rfl

theorem JsonDataEvent.textMembers_eq :
    textMembers library (attributeHeaders library members) = attributesOf members := by
  rw [textMembers, context_attributeHeaders, attributeContext, List.map_map]
  refine (List.map_congr_left fun entry member => ?_).trans (List.map_id _)
  obtain ⟨name, value⟩ := entry
  obtain ⟨text, rfl⟩ := json.text_of_attribute member
  rw [Function.comp_apply, laws.asStr_text]
  exact Prod.ext (ContextName.member_ofMember name) (congrArg library.text (asText_bytesOf text))

theorem JsonDataEvent.insertMembers_eq :
    insertMembers [] (textMembers library (attributeHeaders library members)) =
      attributesOf members := by
  rw [json.textMembers_eq]
  apply insertMembers_of_distinct
  exact List.Nodup.sublist (List.filter_sublist.map Prod.fst) json.distinct

/-- The body is read as JSON where the event says what it is. -/
theorem JsonDataEvent.embeddedData_eq :
    embeddedData library (attributeHeaders library members) (library.write data) =
      if (members.lookup "datacontenttype").isSome then library.read (library.write data)
      else none := by
  have declared : (attributesOf members).lookup "datacontenttype" =
      members.lookup "datacontenttype" := lookup_filter (fun _ => rfl) members
  rw [← jsonData_eq laws, json.insertMembers_eq, jsonData, declared]
  cases found : members.lookup "datacontenttype" with
  | none => rfl
  | some value =>
    have listed := json.distinct.lookup_eq_some.mp found
    obtain ⟨mediaType, text⟩ := json.strings _ listed (by simp)
    have isJson := json.json mediaType (text ▸ found)
    rw [Option.bind_eq_bind, Option.bind_some, show value = library.text mediaType from text,
      laws.asStr_text]
    simp [isJson]

theorem JsonDataEvent.lookup_eq (name : String) :
    members.lookup name =
      if name = "data" then some data else (attributesOf members).lookup name := by
  split
  · rename_i own
    rw [own, json.holds]
  · rename_i other
    by_cases encoded : name = "data_base64"
    · have absent : (attributesOf members).lookup "data_base64" = none := by
        rw [List.lookup_eq_none_iff]
        intro entry member
        obtain ⟨_, kept⟩ := List.mem_filter.mp member
        simp only [Bool.and_eq_true, decide_eq_true_eq] at kept
        exact bne_iff_ne.mpr (Ne.symm kept.2)
      rw [encoded, absent, json.lookup_base64]
    · exact (lookup_filter (fun _ => by simp [other, encoded]) members).symm

theorem JsonDataEvent.settle_attribute (name : String) :
    ((attributesOf members).lookup name).map laws.settle = (attributesOf members).lookup name := by
  cases found : (attributesOf members).lookup name with
  | none => rfl
  | some value =>
    obtain ⟨text, same⟩ := json.text_of_attribute (mem_of_lookup found)
    rw [Option.map_some, show value = library.text text from same, laws.settle_text]

variable {body : Bytes} {back : List (String × Value)}

/-- Where the body is not read as JSON, the event that comes back has a member that it did not
have. -/
theorem JsonDataEvent.embedded_of_back
    (settled : back.Perm ((eventMembers library (attributeHeaders library members) body).map
      (Prod.map id laws.settle))) (same : back.Perm members) :
    (embeddedData library (attributeHeaders library members) body).isSome := by
  by_contra missing
  rw [Option.not_isSome_iff_eq_none] at missing
  have encoded := lookup_event laws settled "data_base64"
  rw [json.distinct.lookup_perm same, json.lookup_base64, eventMembers_eq laws, missing] at encoded
  simp [lookup_insertMember] at encoded

theorem JsonDataEvent.back_perm
    (embedded : embeddedData library (attributeHeaders library members) body = some data)
    (settled : back.Perm ((eventMembers library (attributeHeaders library members) body).map
      (Prod.map id laws.settle))) : back.Perm members := by
  have distinct := ((distinct_eventMembers _ _).map laws.settle).perm settled
  refine distinct.perm_of_lookup json.distinct fun name => ?_
  rw [lookup_event laws settled, eventMembers_eq laws, embedded, json.insertMembers_eq,
    lookup_insertMember, json.lookup_eq name]
  split
  · rw [Option.map_some, laws.settle_exact json.exact]
  · exact json.settle_attribute name

end Event

/-- A structured event with JSON data whose attributes are strings comes back from its binary form
with its attributes and its data exactly if it says what its data is, and the data is not too deep
to be read inside an event. -/
theorem via_binary_iff (laws : library.Laws) (event data : Value) (members : List (String × Value))
    (json : JsonDataEvent laws event members data) :
    (∃ headers body rendered event' members',
      binaryFromStructured library.toEventLibrary event = .ok (headers, body) ∧
      structuredFromBinary library (headers.map fun entry => (entry.1, some entry.2)) body =
        .ok rendered ∧
      library.read rendered = some event' ∧ library.members event' = some members' ∧
      members'.Perm members) ↔
      (members.lookup "datacontenttype").isSome ∧ laws.depth data < laws.depthLimit := by
  have embedded := json.embeddedData_eq
  constructor
  · rintro ⟨_, _, _, event', members', split, joined, reads, object, same⟩
    rw [json.binaryFromStructured_eq] at split
    cases split
    cases (structuredFromBinary_of_texts (texts_attributeHeaders members) _).symm.trans joined
    have fits := fits_of_read laws reads
    obtain ⟨own, back, readsOwn, objectOwn, settled⟩ := read_event laws fits
    obtain rfl : own = event' := Option.some.inj (readsOwn.symm.trans reads)
    obtain rfl : back = members' := Option.some.inj (objectOwn.symm.trans object)
    have found := json.embedded_of_back settled same
    rw [embedded] at found
    split at found
    · rename_i declared
      have shallow : laws.depth data ≤ laws.depthLimit := by
        by_contra deep
        rw [laws.read_write_deep (Nat.lt_of_not_le deep)] at found
        cases found
      rw [if_pos declared, laws.read_write shallow, laws.settle_exact json.exact] at embedded
      exact ⟨declared, fits data embedded⟩
    · cases found
  · rintro ⟨declared, shallow⟩
    rw [if_pos declared, laws.read_write (Nat.le_of_lt shallow), laws.settle_exact json.exact]
      at embedded
    have fits : laws.Fits (attributeHeaders library members) (library.write data) := by
      intro document found
      cases embedded.symm.trans found
      exact shallow
    obtain ⟨event', members', reads, object, settled⟩ := read_event laws fits
    exact ⟨_, _, _, event', members', json.binaryFromStructured_eq,
      structuredFromBinary_of_texts (texts_attributeHeaders members) _, reads, object,
      json.back_perm embedded settled⟩

end ViaBinary

def orderMembers : List (String × Json) :=
  [("id", .string "7"), ("source", .string "/orders"), ("type", .string "order.new"),
    ("specversion", .string "1.0")]

theorem strings_orderMembers {entry : String × Json} (member : entry ∈ orderMembers) :
    ∃ text, entry.2 = jsonEvents.text text := by
  simp only [orderMembers, List.mem_cons, List.not_mem_nil, or_false] at member
  rcases member with rfl | rfl | rfl | rfl <;> exact ⟨_, rfl⟩

def declaredOrder : List (String × Json) :=
  orderMembers ++ [("datacontenttype", .string "application/json"), ("data", .object [])]

theorem jsonDataEvent_declaredOrder :
    JsonDataEvent jsonLaws (.object declaredOrder) declaredOrder (.object []) where
  object := rfl
  distinct := by
    unfold Distinct
    decide
  accepted := by decide
  strings := by
    intro entry member other
    simp only [declaredOrder, List.mem_append, List.mem_cons, List.not_mem_nil, or_false] at member
    rcases member with own | rfl | rfl
    · exact strings_orderMembers own
    · exact ⟨_, rfl⟩
    · exact absurd rfl other
  holds := by rfl
  exact := trivial
  json := by
    intro mediaType found
    cases found
    decide

theorem declared_order_comes_back :
    JsonDataEvent jsonLaws (.object declaredOrder) declaredOrder (.object []) ∧
      ∃ headers body rendered event' members',
        binaryFromStructured jsonEvents.toEventLibrary (.object declaredOrder) =
          .ok (headers, body) ∧
        structuredFromBinary jsonEvents (headers.map fun entry => (entry.1, some entry.2)) body =
          .ok rendered ∧
        jsonEvents.read rendered = some event' ∧ jsonEvents.members event' = some members' ∧
        members'.Perm declaredOrder :=
  ⟨jsonDataEvent_declaredOrder,
    (via_binary_iff jsonLaws _ _ _ jsonDataEvent_declaredOrder).mpr ⟨by decide, by decide⟩⟩

def undeclaredOrder : List (String × Json) :=
  orderMembers ++ [("data", .object [])]

theorem jsonDataEvent_undeclaredOrder :
    JsonDataEvent jsonLaws (.object undeclaredOrder) undeclaredOrder (.object []) where
  object := rfl
  distinct := by
    unfold Distinct
    decide
  accepted := by decide
  strings := by
    intro entry member other
    simp only [undeclaredOrder, List.mem_append, List.mem_cons, List.not_mem_nil, or_false]
      at member
    rcases member with own | rfl
    · exact strings_orderMembers own
    · exact absurd rfl other
  holds := by rfl
  exact := trivial
  json := by
    intro mediaType found
    cases found

/-- Without a data content type the body is not read as JSON, so the data comes back as base64. -/
theorem undeclared_data_comes_back_as_base64 :
    JsonDataEvent jsonLaws (.object undeclaredOrder) undeclaredOrder (.object []) ∧
      ∃ headers body rendered members',
        binaryFromStructured jsonEvents.toEventLibrary (.object undeclaredOrder) =
          .ok (headers, body) ∧
        structuredFromBinary jsonEvents (headers.map fun entry => (entry.1, some entry.2)) body =
          .ok rendered ∧
        jsonEvents.read rendered = some (.object members') ∧
        members'.lookup "data" = none ∧
        members'.lookup "data_base64" = some (.string (jsonEvents.base64Encode body)) := by
  have order := jsonDataEvent_undeclaredOrder
  have back : eventMembers jsonEvents (attributeHeaders jsonEvents undeclaredOrder)
      (jsonEvents.write (.object [])) = orderMembers ++
        [("data_base64", .string (jsonEvents.base64Encode (jsonEvents.write (.object []))))] := by
    rw [eventMembers_eq jsonLaws, order.embeddedData_eq, if_neg (by decide), order.insertMembers_eq]
    rfl
  refine ⟨order, _, _, _, orderMembers ++ [("data_base64", .string _)],
    order.binaryFromStructured_eq,
    structuredFromBinary_of_texts (texts_attributeHeaders undeclaredOrder) _, ?_, rfl, rfl⟩
  rw [back, jsonEvents_read_write, if_pos (by decide)]
  rfl

end KrabkaGateway.Outbound
