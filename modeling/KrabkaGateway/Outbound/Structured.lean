import KrabkaGateway.Lib.Members
import KrabkaGateway.Outbound.Relay

/-!
# Structured events

The structured rendering of `outbound.rs` and `structured_from_binary` of
`ce_translate.rs`: the attributes become members of one JSON object, in which the
last header under a name stays, and the value goes in as JSON or as base64. JSON
is a library; of its reader it matters how deeply a document may be nested.
-/

namespace KrabkaGateway.Outbound

open Lib Webhook

/-- JSON and base64 as the structured rendering writes them. -/
structure StructuredLibrary (Query Value : Type) extends EventLibrary Query Value where
  text : String → Value
  object : List (String × Value) → Value
  base64Encode : Bytes → String

def isJsonMediaType (mediaType : List Char) : Bool :=
  let mediaType := baseMediaType mediaType
  mediaType = "application/json".toList || "+json".toList.isSuffixOf mediaType

section Model

variable {Query Value : Type} (library : StructuredLibrary Query Value)

/-- The loop of `structured_from_binary` over one header. -/
def addHeader (event : List (String × Value)) (entry : String × Option Bytes) :
    Except CeError (List (String × Value)) :=
  match entry.2 with
  | none => .ok event
  | some value =>
    match utf8Chars value with
    | none => .error (.nonUtf8Attribute entry.1)
    | some chars =>
      let value := library.text (String.ofList chars)
      match stripPrefix "ce_".toList entry.1.toList with
      | some ceName =>
        if ceName = "datacontenttype".toList then
          .ok (insertMember "datacontenttype" value event)
        else .ok (insertMember (String.ofList ceName) value event)
      | none =>
        if entry.1 = "content-type" then .ok (insertMember "datacontenttype" value event)
        else .ok event

def jsonData (event : List (String × Value)) (value : Bytes) : Option Value :=
  match event.lookup "datacontenttype" >>= library.asStr with
  | none => none
  | some mediaType => if isJsonMediaType mediaType.toList then library.read value else none

def addData (event : List (String × Value)) (value : Bytes) : List (String × Value) :=
  match jsonData library event value with
  | some data => insertMember "data" data event
  | none => insertMember "data_base64" (library.text (library.base64Encode value)) event

def structuredFromBinary (headers : List (String × Option Bytes)) (value : Bytes) :
    Except CeError Bytes := do
  let event ← headers.foldlM (addHeader library) []
  return library.write (library.object (addData library event value))

def cloudeventsJsonContentType : String :=
  "application/cloudevents+json; charset=UTF-8"

def renderCloudeventsStructured (record : Payload) : Except CeError RenderedDelivery := do
  let body ←
    if ← isStructuredAtRest record.headers then do
      let event ← parseStructuredRecord library.toEventLibrary record
      validateStructuredJson library.toJsonLibrary event
      pure (record.value.getD [])
    else do
      validateRecordCloudevent record.headers
      structuredFromBinary library record.headers (record.value.getD [])
  return { body, headers := [("content-type", bytesOf cloudeventsJsonContentType)] }

end Model

/-! ## Texts -/

def asText (value : Bytes) : String :=
  String.ofList ((utf8Chars value).getD [])

theorem asText_bytesOf (text : String) : asText (bytesOf text) = text := by
  rw [asText, utf8Chars_bytesOf, Option.getD_some, String.ofList_toList]

variable {value : Bytes}

theorem bytesOf_asText (valid : isUtf8 value = true) : bytesOf (asText value) = value := by
  unfold isUtf8 String.fromUTF8? at valid
  split at valid
  · rename_i decodes
    simp only [asText, utf8Chars, String.fromUTF8?, dif_pos decodes, Option.map_some,
      Option.getD_some, String.ofList_toList]
    rfl
  · cases valid

theorem utf8Chars_of_isUtf8 (valid : isUtf8 value = true) :
    utf8Chars value = some (asText value).toList := by
  rw [← bytesOf_asText valid, utf8Chars_bytesOf, asText_bytesOf]

theorem utf8Chars_of_not_isUtf8 (invalid : isUtf8 value = false) : utf8Chars value = none := by
  have undecoded : String.fromUTF8? ⟨value.toArray⟩ = none := by simpa [isUtf8] using invalid
  rw [utf8Chars, undecoded]
  rfl

def Texts (headers : List (String × Option Bytes)) : Prop :=
  ∀ entry ∈ presentHeaders headers, isUtf8 entry.2 = true

/-! ## The members of an event -/

def ContextName.member : ContextName → String
  | .ceAttribute name => name
  | .contentType => "datacontenttype"

section Members

variable {Query Value : Type} {library : StructuredLibrary Query Value}

theorem addHeader_some (event : List (String × Value)) (key : String) (value : Bytes) :
    addHeader library event (key, some value) =
      if isUtf8 value then
        .ok (insertMembers event ((ContextName.of "ce_" key).map fun part =>
          (part.member, library.text (asText value))).toList)
      else .error (.nonUtf8Attribute key) := by
  cases valid : isUtf8 value with
  | false => simp only [addHeader, utf8Chars_of_not_isUtf8 valid, Bool.false_eq_true, if_false]
  | true =>
    simp only [addHeader, utf8Chars_of_isUtf8 valid, if_true, String.ofList_toList,
      ContextName.of]
    cases stripPrefix "ce_".toList key.toList with
    | none | some =>
      dsimp only
      split <;> rfl

variable (library) in
def textMembers (headers : List (String × Option Bytes)) : List (String × Value) :=
  (context "ce_" (presentHeaders headers)).map fun part =>
    (part.1.member, library.text (asText part.2))

variable {headers : List (String × Option Bytes)}

theorem addHeaders_of_texts (texts : Texts headers) (event : List (String × Value)) :
    headers.foldlM (addHeader library) event =
      .ok (insertMembers event (textMembers library headers)) := by
  induction headers generalizing event with
  | nil => rfl
  | cons entry headers ih =>
    obtain ⟨key, value⟩ := entry
    cases value with
    | none => exact ih texts event
    | some value =>
      have own : isUtf8 value = true := texts (key, value) List.mem_cons_self
      have rest : Texts headers := fun entry member => texts entry (List.mem_cons_of_mem _ member)
      rw [List.foldlM_cons, addHeader_some, if_pos own]
      refine (ih rest _).trans (congrArg Except.ok ?_)
      simp only [textMembers, presentHeaders, context, List.filterMap_cons, Option.map_some]
      cases ContextName.of "ce_" key <;> rfl

theorem texts_of_addHeaders {event members : List (String × Value)}
    (added : headers.foldlM (addHeader library) event = .ok members) : Texts headers := by
  induction headers generalizing event with
  | nil => exact fun _ member => absurd member List.not_mem_nil
  | cons entry headers ih =>
    rw [List.foldlM_cons] at added
    obtain ⟨next, first, rest⟩ := ok_of_bind added
    obtain ⟨key, value⟩ := entry
    have later := ih rest
    cases value with
    | none => exact later
    | some value =>
      rw [addHeader_some] at first
      split at first
      · rename_i own
        intro entry member
        rcases List.mem_cons.mp member with rfl | member
        · exact own
        · exact later entry member
      · cases first

end Members

/-! ## The event that is read back -/

/-- What is known of JSON and base64. A document that is nested more deeply than the reader goes is
written but not read; one that is read back has its members in some order. -/
structure StructuredLibrary.Laws {Query Value : Type}
    (library : StructuredLibrary Query Value) where
  depth : Value → Nat
  /-- The deepest nesting that the reader takes. -/
  depthLimit : Nat
  /-- The document that is read where this one was written. -/
  settle : Value → Value
  /-- Documents with distinct keys, whose numbers are 64-bit integers. -/
  Exact : Value → Prop
  asStr_text (text : String) : library.asStr (library.text text) = some text
  depth_text (text : String) : depth (library.text text) < depthLimit
  depth_object {members : List (String × Value)} (distinct : Distinct members) :
    depth (library.object members) ≤ depthLimit ↔
      ∀ member ∈ members, depth member.2 < depthLimit
  read_write {value : Value} (shallow : depth value ≤ depthLimit) :
    library.read (library.write value) = some (settle value)
  read_write_deep {value : Value} (deep : depthLimit < depth value) :
    library.read (library.write value) = none
  settle_text (text : String) : settle (library.text text) = library.text text
  settle_exact {value : Value} (exact : Exact value) : settle value = value
  settle_object {members : List (String × Value)} (distinct : Distinct members) :
    ∃ settled, library.members (settle (library.object members)) = some settled ∧
      settled.Perm (members.map (Prod.map id settle))
  base64 (bytes : Bytes) :
    library.base64Decode (bytesOf (library.base64Encode bytes)) = some bytes

def lastValue (headers : List (String × Option Bytes)) (name : String) : Option Bytes :=
  ((context "ce_" (presentHeaders headers)).reverse.map fun part =>
    (part.1.member, part.2)).lookup name

section Rendered

variable {Query Value : Type} {library : StructuredLibrary Query Value}

variable (library) in
def embeddedData (headers : List (String × Option Bytes)) (value : Bytes) : Option Value :=
  match lastValue headers "datacontenttype" with
  | none => none
  | some mediaType =>
    if isJsonMediaType (asText mediaType).toList then library.read value else none

variable (library) in
def eventMembers (headers : List (String × Option Bytes)) (value : Bytes) : List (String × Value) :=
  addData library (insertMembers [] (textMembers library headers)) value

variable {headers : List (String × Option Bytes)}

theorem structuredFromBinary_of_texts (texts : Texts headers) (value : Bytes) :
    structuredFromBinary library headers value =
      .ok (library.write (library.object (eventMembers library headers value))) := by
  rw [structuredFromBinary, addHeaders_of_texts texts]
  rfl

theorem lookup_textMembers (headers : List (String × Option Bytes)) (name : String) :
    (insertMembers [] (textMembers library headers)).lookup name =
      (lastValue headers name).map fun value => library.text (asText value) := by
  have mapped : (textMembers library headers).reverse =
      ((context "ce_" (presentHeaders headers)).reverse.map fun part =>
        (part.1.member, part.2)).map (Prod.map id fun value => library.text (asText value)) := by
    rw [textMembers, ← List.map_reverse, List.map_map]
    rfl
  rw [lookup_insertMembers, mapped, lookup_map, List.lookup_nil, Option.or_none]
  rfl

theorem jsonData_eq (laws : library.Laws) (headers : List (String × Option Bytes)) (value : Bytes) :
    jsonData library (insertMembers [] (textMembers library headers)) value =
      embeddedData library headers value := by
  rw [jsonData, lookup_textMembers, embeddedData]
  cases lastValue headers "datacontenttype" with
  | none => rfl
  | some mediaType =>
    rw [Option.map_some, Option.bind_eq_bind, Option.bind_some, laws.asStr_text]

theorem eventMembers_eq (laws : library.Laws) (headers : List (String × Option Bytes))
    (value : Bytes) :
    eventMembers library headers value =
      match embeddedData library headers value with
      | some data => insertMember "data" data (insertMembers [] (textMembers library headers))
      | none => insertMember "data_base64" (library.text (library.base64Encode value))
          (insertMembers [] (textMembers library headers)) := by
  rw [eventMembers, addData, jsonData_eq laws]

theorem distinct_textMembers (headers : List (String × Option Bytes)) :
    Distinct (insertMembers [] (textMembers library headers)) :=
  distinct_nil.insertMembers _

theorem distinct_eventMembers (headers : List (String × Option Bytes)) (value : Bytes) :
    Distinct (eventMembers library headers value) := by
  rw [eventMembers, addData]
  split <;> exact (distinct_textMembers headers).insertMember _ _

theorem depth_textMembers (laws : library.Laws) {entry : String × Value}
    (member : entry ∈ insertMembers [] (textMembers library headers)) :
    laws.depth entry.2 < laws.depthLimit := by
  rcases mem_insertMembers member with member | member
  · obtain ⟨part, _, rfl⟩ := List.mem_map.mp member
    exact laws.depth_text _
  · cases member

/-- Data that is not too deep to be read inside the event. -/
def StructuredLibrary.Laws.Fits (laws : library.Laws) (headers : List (String × Option Bytes))
    (value : Bytes) : Prop :=
  ∀ data, embeddedData library headers value = some data → laws.depth data < laws.depthLimit

theorem depth_eventMembers (laws : library.Laws) (headers : List (String × Option Bytes))
    (value : Bytes) :
    laws.depth (library.object (eventMembers library headers value)) ≤ laws.depthLimit ↔
      laws.Fits headers value := by
  rw [laws.depth_object (distinct_eventMembers headers value), StructuredLibrary.Laws.Fits,
    eventMembers_eq laws]
  cases embeddedData library headers value with
  | none =>
    refine iff_of_true (fun entry member => ?_)
      (fun _ found => absurd found.symm (Option.some_ne_none _))
    rcases mem_insertMember member with rfl | member
    · exact laws.depth_text _
    · exact depth_textMembers laws member
  | some data =>
    constructor
    · rintro shallow _ ⟨⟩
      have found : (insertMember "data" data
          (insertMembers [] (textMembers library headers))).lookup "data" = some data := by
        rw [lookup_insertMember, if_pos rfl]
      have distinct := @distinct_textMembers _ _ library headers |>.insertMember "data" data
      exact shallow _ (distinct.lookup_eq_some.mp found)
    · intro fits entry member
      rcases mem_insertMember member with rfl | member
      · exact fits data rfl
      · exact depth_textMembers laws member

variable {value : Bytes}

/-- What is read of the rendered event: its members, as they come back. -/
theorem read_event (laws : library.Laws) (fits : laws.Fits headers value) :
    ∃ event members,
      library.read (library.write (library.object (eventMembers library headers value))) =
        some event ∧
      library.members event = some members ∧
      members.Perm ((eventMembers library headers value).map (Prod.map id laws.settle)) := by
  obtain ⟨members, object, same⟩ := laws.settle_object (distinct_eventMembers headers value)
  exact ⟨_, members, laws.read_write ((depth_eventMembers laws headers value).mpr fits), object,
    same⟩

theorem fits_of_read (laws : library.Laws) {event : Value}
    (reads : library.read (library.write (library.object (eventMembers library headers value))) =
      some event) : laws.Fits headers value := by
  by_contra deep
  rw [← depth_eventMembers laws, not_le] at deep
  cases (laws.read_write_deep deep).symm.trans reads

variable {members : List (String × Value)}

theorem lookup_event (laws : library.Laws)
    (same : members.Perm ((eventMembers library headers value).map (Prod.map id laws.settle)))
    (name : String) :
    members.lookup name = ((eventMembers library headers value).lookup name).map laws.settle := by
  rw [((distinct_eventMembers headers value).map laws.settle).lookup_perm same, lookup_map]

theorem lookup_attribute (laws : library.Laws)
    (same : members.Perm ((eventMembers library headers value).map (Prod.map id laws.settle)))
    {name : String} (other : name ≠ "data" ∧ name ≠ "data_base64") :
    members.lookup name =
      (lastValue headers name).map fun value => library.text (asText value) := by
  rw [lookup_event laws same, eventMembers_eq laws]
  have own : ((insertMembers [] (textMembers library headers)).lookup name).map laws.settle =
      (lastValue headers name).map fun value => library.text (asText value) := by
    rw [lookup_textMembers, Option.map_map]
    congr 1
    funext value
    exact laws.settle_text _
  cases embeddedData library headers value with
  | none => rw [lookup_insertMember, if_neg other.2, own]
  | some data => rw [lookup_insertMember, if_neg other.1, own]

end Rendered

/-! ## Events as JSON text -/

/-- The character that stands for a byte in the place of base64. -/
def byteChar (byte : UInt8) : Char :=
  Char.ofNat byte.toNat

theorem toNat_byteChar (byte : UInt8) : (byteChar byte).toNat = byte.toNat := by
  have small : byte.toNat < 256 := byte.toNat_lt
  have valid : byte.toNat.isValidChar := Or.inl (by omega)
  rw [byteChar, Char.ofNat, dif_pos valid]
  rfl

def jsonEvents : StructuredLibrary Unit Json where
  toEventLibrary := jsonText
  text := .string
  object := .object
  base64Encode bytes := String.ofList (bytes.map byteChar)

theorem jsonEvents_read_write (value : Json) :
    jsonEvents.read (jsonEvents.write value) =
      if Json.depth value ≤ 127 then some value else none :=
  jsonText_read_write value

def jsonLaws : jsonEvents.Laws where
  depth := Json.depth
  depthLimit := 127
  settle := id
  Exact _ := True
  asStr_text _ := rfl
  depth_text text := by
    rw [show jsonEvents.text text = .string text from rfl, Json.depth]
    decide
  depth_object {members} _ := by
    rw [show jsonEvents.object members = .object members from rfl, Json.depth, Nat.succ_le_iff,
      Nat.lt_succ_iff, Json.depthMembers_le]
    exact forall₂_congr fun _ _ => Nat.lt_succ_iff.symm
  read_write shallow := by
    rw [jsonEvents_read_write, if_pos shallow]
    rfl
  read_write_deep deep := by
    rw [jsonEvents_read_write, if_neg (Nat.not_le.mpr deep)]
  settle_text _ := rfl
  settle_exact _ := rfl
  settle_object {members} _ := ⟨members, rfl, by simp⟩
  base64 bytes := by
    have text : utf8Chars (bytesOf (jsonEvents.base64Encode bytes)) =
        some (bytes.map byteChar) := by
      rw [show jsonEvents.base64Encode bytes = String.ofList (bytes.map byteChar) from rfl,
        utf8Chars_bytesOf, String.toList_ofList]
    have each : (fun char : Char => UInt8.ofNat char.toNat) ∘ byteChar = id := by
      funext byte
      simp [toNat_byteChar]
    rw [show ∀ text, jsonEvents.base64Decode text =
      (utf8Chars text).map (·.map fun char => UInt8.ofNat char.toNat) from fun _ => rfl, text,
      Option.map_some, List.map_map, each, List.map_id]

def orderAttributes : List (String × Option Bytes) :=
  [("ce_id", some (bytesOf "7")), ("ce_source", some (bytesOf "/orders")),
    ("ce_type", some (bytesOf "order.new")), ("ce_specversion", some (bytesOf "1.0"))]

def jsonOrderHeaders : List (String × Option Bytes) :=
  orderAttributes ++ [("content-type", some (bytesOf "application/json"))]

theorem texts_jsonOrderHeaders : Texts jsonOrderHeaders := by
  unfold Texts
  decide

theorem embeddedData_jsonOrder {document : Json} (shallow : document.depth ≤ 127) :
    embeddedData jsonEvents jsonOrderHeaders (jsonEvents.write document) = some document := by
  have declared : lastValue jsonOrderHeaders "datacontenttype" =
      some (bytesOf "application/json") := by decide
  rw [embeddedData, declared]
  dsimp only
  rw [if_pos (by decide), jsonEvents_read_write, if_pos shallow]

end KrabkaGateway.Outbound
