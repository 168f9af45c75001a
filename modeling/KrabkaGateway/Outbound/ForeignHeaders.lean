import KrabkaGateway.Outbound.Structured

/-!
# Headers of others

Headers that are not part of an event, put anywhere among those of its record.
The binary rendering does not see them. The structured rendering reads every
header as text before it looks at the name, so one that is not UTF-8 is refused.
-/

namespace KrabkaGateway.Outbound

open Lib Webhook

inductive Interleaves {Entry : Type} : List Entry → List Entry → List Entry → Prop where
  | nil : Interleaves [] [] []
  | own {entry : Entry} {own extra merged : List Entry} (rest : Interleaves own extra merged) :
      Interleaves (entry :: own) extra (entry :: merged)
  | extra {entry : Entry} {own extra merged : List Entry} (rest : Interleaves own extra merged) :
      Interleaves own (entry :: extra) (entry :: merged)

theorem Interleaves.mem_iff {Entry : Type} {own extra merged : List Entry}
    (interleaved : Interleaves own extra merged) {entry : Entry} :
    entry ∈ merged ↔ entry ∈ own ∨ entry ∈ extra := by
  induction interleaved with
  | nil => simp
  | own _ ih => simp [ih, or_assoc]
  | extra _ ih => simp [ih, or_left_comm]

def Foreign (name : String) : Prop :=
  "ce_".toList.isPrefixOf name.toList = false ∧ name ≠ "content-type"

theorem of_foreign {name : String} (foreign : Foreign name) : ContextName.of "ce_" name = none := by
  rw [ContextName.of, stripPrefix, foreign.1]
  exact if_neg foreign.2

/-! ## What is read of the headers -/

section Headers

variable {own extra merged : List (String × Option Bytes)}

theorem isStructuredAtRest_interleaved (interleaved : Interleaves own extra merged)
    (foreign : ∀ entry ∈ extra, Foreign entry.1) :
    isStructuredAtRest merged = isStructuredAtRest own := by
  induction interleaved with
  | nil => rfl
  | @own entry _ _ _ _ ih =>
    obtain ⟨key, value⟩ := entry
    simp only [isStructuredAtRest, ih foreign]
  | @extra entry _ _ _ _ ih =>
    obtain ⟨key, value⟩ := entry
    have here := foreign (key, value) List.mem_cons_self
    simp only [isStructuredAtRest, if_pos here.2]
    exact ih fun entry member => foreign entry (List.mem_cons_of_mem _ member)

theorem context_cons (entry : String × Option Bytes) (headers : List (String × Option Bytes)) :
    context "ce_" (presentHeaders (entry :: headers)) =
      context "ce_" (presentHeaders [entry]) ++ context "ce_" (presentHeaders headers) := by
  unfold context presentHeaders
  rw [← List.filterMap_append, ← List.filterMap_append, List.singleton_append]

variable {entry : String × Option Bytes}

theorem context_foreign (foreign : Foreign entry.1) :
    context "ce_" (presentHeaders [entry]) = [] := by
  obtain ⟨key, value⟩ := entry
  cases value with
  | none => rfl
  | some value => exact context_cons_of_none (of_foreign foreign) []

theorem context_interleaved (interleaved : Interleaves own extra merged)
    (foreign : ∀ entry ∈ extra, Foreign entry.1) :
    context "ce_" (presentHeaders merged) = context "ce_" (presentHeaders own) := by
  induction interleaved with
  | nil => rfl
  | own _ ih =>
    rw [context_cons, ih foreign, ← context_cons]
  | extra _ ih =>
    rw [context_cons, context_foreign (foreign _ List.mem_cons_self), List.nil_append]
    exact ih fun entry member => foreign entry (List.mem_cons_of_mem _ member)

theorem texts_interleaved (interleaved : Interleaves own extra merged) :
    Texts merged ↔ Texts own ∧ Texts extra := by
  simp only [Texts, Prod.forall, mem_presentHeaders, interleaved.mem_iff]
  constructor
  · intro all
    exact ⟨fun key value member => all key value (Or.inl member),
      fun key value member => all key value (Or.inr member)⟩
  · rintro ⟨ours, others⟩ key value (member | member)
    · exact ours key value member
    · exact others key value member

theorem validateRecordCloudevent_interleaved (interleaved : Interleaves own extra merged)
    (foreign : ∀ entry ∈ extra, Foreign entry.1) :
    validateRecordCloudevent merged = .ok () ↔ validateRecordCloudevent own = .ok () := by
  unfold validateRecordCloudevent
  rw [validateBinaryRequired_iff, validateBinaryRequired_iff,
    context_interleaved interleaved foreign]
  apply and_congr_left'
  simp only [Prod.forall, mem_presentHeaders, interleaved.mem_iff]
  constructor
  · intro all key value member
    exact all key value (Or.inl member)
  · rintro all key value (member | member)
    · exact all key value member
    · intro named
      have outside := (foreign _ member).1
      cases outside.symm.trans named

theorem headerToHttp_foreign (foreign : Foreign entry.1) : headerToHttp entry = .ok none := by
  obtain ⟨key, value⟩ := entry
  cases value with
  | none => rfl
  | some value => rw [headerToHttp_eq, of_foreign foreign]

theorem kafkaHeadersToHttp_interleaved (interleaved : Interleaves own extra merged)
    (foreign : ∀ entry ∈ extra, Foreign entry.1) :
    kafkaHeadersToHttp merged = kafkaHeadersToHttp own := by
  induction interleaved with
  | nil => rfl
  | own _ ih =>
    have rest := ih foreign
    unfold kafkaHeadersToHttp at rest ⊢
    rw [collect_cons, collect_cons, rest]
  | extra _ ih =>
    have skipped := headerToHttp_foreign (foreign _ List.mem_cons_self)
    have rest := ih fun entry member => foreign entry (List.mem_cons_of_mem _ member)
    exact (collect_cons_none skipped _).trans rest

end Headers

/-! ## What is rendered -/

section Rendering

variable {Query Value : Type} {library : StructuredLibrary Query Value}
variable {record : Payload} {extra merged : List (String × Option Bytes)}

theorem renderCloudeventsBinary_interleaved (interleaved : Interleaves record.headers extra merged)
    (foreign : ∀ entry ∈ extra, Foreign entry.1) :
    (renderCloudeventsBinary library.toEventLibrary { record with headers := merged }).toOption =
      (renderCloudeventsBinary library.toEventLibrary record).toOption := by
  have mode := isStructuredAtRest_interleaved interleaved foreign
  cases own : isStructuredAtRest record.headers with
  | error error =>
    simp only [renderCloudeventsBinary, eventParts, mode, own]
    rfl
  | ok structured =>
    cases structured with
    | true =>
      simp only [renderCloudeventsBinary, eventParts, mode, own]
      rfl
    | false =>
      have valid := validateRecordCloudevent_interleaved interleaved foreign
      rw [renderCloudeventsBinary, renderCloudeventsBinary, eventParts_binary own,
        eventParts_binary (mode.trans own)]
      cases ours : validateRecordCloudevent record.headers with
      | ok _ =>
        rw [valid.mpr ours]
        simp only [Except.map, bind, Except.bind,
          kafkaHeadersToHttp_interleaved interleaved foreign]
      | error error =>
        cases theirs : validateRecordCloudevent merged with
        | ok _ => cases ours.symm.trans (valid.mp theirs)
        | error _ => rfl

theorem renderCloudeventsStructured_binary
    (unstructured : isStructuredAtRest record.headers = .ok false) :
    renderCloudeventsStructured library record = do
      validateRecordCloudevent record.headers
      let body ← structuredFromBinary library record.headers (record.value.getD [])
      return { body, headers := [("content-type", bytesOf cloudeventsJsonContentType)] } := by
  unfold renderCloudeventsStructured
  rw [unstructured]
  cases validateRecordCloudevent record.headers <;> rfl

/-- A record that holds a binary event whose headers are all text is rendered; -/
theorem renderCloudeventsStructured_of_texts
    (unstructured : isStructuredAtRest record.headers = .ok false)
    (valid : validateRecordCloudevent record.headers = .ok ()) (texts : Texts record.headers) :
    renderCloudeventsStructured library record = .ok {
      body := library.write (library.object
        (eventMembers library record.headers (record.value.getD [])))
      headers := [("content-type", bytesOf cloudeventsJsonContentType)] } := by
  rw [renderCloudeventsStructured_binary unstructured, valid, structuredFromBinary_of_texts texts]
  rfl

theorem renderCloudeventsStructured_of_not
    (unstructured : isStructuredAtRest record.headers = .ok false)
    (refused : ¬(validateRecordCloudevent record.headers = .ok () ∧ Texts record.headers)) :
    (renderCloudeventsStructured library record).toOption = none := by
  cases result : renderCloudeventsStructured library record with
  | error error => rfl
  | ok rendered =>
    rw [renderCloudeventsStructured_binary unstructured] at result
    obtain ⟨_, valid, result⟩ := ok_of_bind result
    obtain ⟨_, body, _⟩ := ok_of_bind result
    obtain ⟨_, added, _⟩ := ok_of_bind body
    exact absurd ⟨valid, texts_of_addHeaders added⟩ refused

theorem eventMembers_interleaved {own : List (String × Option Bytes)}
    (interleaved : Interleaves own extra merged) (foreign : ∀ entry ∈ extra, Foreign entry.1)
    (value : Bytes) : eventMembers library merged value = eventMembers library own value := by
  rw [eventMembers, eventMembers, textMembers, textMembers, context_interleaved interleaved foreign]

/-- The structured rendering of a record that holds a binary event of its own. -/
theorem renderCloudeventsStructured_interleaved
    (interleaved : Interleaves record.headers extra merged)
    (foreign : ∀ entry ∈ extra, Foreign entry.1)
    (unstructured : isStructuredAtRest record.headers = .ok false) :
    (renderCloudeventsStructured library { record with headers := merged }).toOption =
        (renderCloudeventsStructured library record).toOption ↔
      Texts extra ∨ ¬(validateRecordCloudevent record.headers = .ok () ∧ Texts record.headers) := by
  have mode : isStructuredAtRest { record with headers := merged }.headers = .ok false :=
    (isStructuredAtRest_interleaved interleaved foreign).trans unstructured
  have valid := validateRecordCloudevent_interleaved interleaved foreign
  have texts := texts_interleaved interleaved
  by_cases accepted : validateRecordCloudevent record.headers = .ok () ∧ Texts record.headers
  · have rendered := @renderCloudeventsStructured_of_texts _ _ library _ unstructured
      accepted.1 accepted.2
    by_cases others : Texts extra
    · refine iff_of_true ?_ (Or.inl others)
      rw [rendered, renderCloudeventsStructured_of_texts mode (valid.mpr accepted.1)
        (texts.mpr ⟨accepted.2, others⟩), eventMembers_interleaved interleaved foreign]
    · have refused := @renderCloudeventsStructured_of_not _ _ library _ mode
        fun all => others (texts.mp all.2).2
      rw [rendered, refused]
      simp [others, accepted, Except.toOption]
  · refine iff_of_true ?_ (Or.inr accepted)
    rw [renderCloudeventsStructured_of_not unstructured accepted,
      renderCloudeventsStructured_of_not mode fun all =>
        accepted ⟨valid.mp all.1, (texts.mp all.2).1⟩]

variable (library) in
/-- Headers of others change neither rendering exactly if they are text, or the record is structured
at rest, or it is not rendered without them either. -/
theorem foreign_headers_ignored_iff (record : Payload)
    (extra merged : List (String × Option Bytes)) (foreign : ∀ entry ∈ extra, Foreign entry.1)
    (interleaved : Interleaves record.headers extra merged) :
    ((renderCloudeventsBinary library.toEventLibrary { record with headers := merged }).toOption =
        (renderCloudeventsBinary library.toEventLibrary record).toOption ∧
      (renderCloudeventsStructured library { record with headers := merged }).toOption =
        (renderCloudeventsStructured library record).toOption) ↔
      Texts extra ∨ isStructuredAtRest record.headers ≠ .ok false ∨
        ¬(validateRecordCloudevent record.headers = .ok () ∧ Texts record.headers) := by
  rw [and_iff_right (renderCloudeventsBinary_interleaved interleaved foreign)]
  have mode := isStructuredAtRest_interleaved interleaved foreign
  cases own : isStructuredAtRest record.headers with
  | error error =>
    refine iff_of_true ?_ (Or.inr (Or.inl nofun))
    simp only [renderCloudeventsStructured, mode, own]
    rfl
  | ok structured =>
    cases structured with
    | true =>
      refine iff_of_true ?_ (Or.inr (Or.inl nofun))
      simp only [renderCloudeventsStructured, mode, own]
      rfl
    | false =>
      rw [renderCloudeventsStructured_interleaved interleaved foreign own]
      simp

end Rendering

def tracedOrder (trace : Bytes) : Payload where
  key := none
  value := none
  headers := ("trace", some trace) :: orderAttributes
  timestamp := 0

def untracedOrder : Payload :=
  { tracedOrder [] with headers := orderAttributes }

theorem orderAttributes_interleaved (trace : Bytes) :
    Interleaves orderAttributes [("trace", some trace)] (tracedOrder trace).headers := by
  apply Interleaves.extra
  exact .own (.own (.own (.own .nil)))

theorem traced_order_is_rendered_alike :
    Foreign "trace" ∧
      (renderCloudeventsBinary jsonEvents.toEventLibrary (tracedOrder [49])).toOption =
        (renderCloudeventsBinary jsonEvents.toEventLibrary untracedOrder).toOption ∧
      (renderCloudeventsStructured jsonEvents (tracedOrder [49])).toOption =
        (renderCloudeventsStructured jsonEvents untracedOrder).toOption := by
  have foreign : Foreign "trace" := by
    unfold Foreign
    decide
  have each : ∀ entry ∈ [("trace", some ([49] : Bytes))], Foreign entry.1 := by
    intro entry member
    cases List.mem_singleton.mp member
    exact foreign
  have texts : Texts [("trace", some ([49] : Bytes))] := by
    unfold Texts
    decide
  exact ⟨foreign, (foreign_headers_ignored_iff jsonEvents untracedOrder _ _ each
    (orderAttributes_interleaved [49])).mpr (Or.inl texts)⟩

/-- The structured rendering fails on a header that it would not have used. -/
theorem undecodable_header_stops_rendering :
    Foreign "trace" ∧ (renderCloudeventsStructured jsonEvents untracedOrder).isOk = true ∧
      renderCloudeventsStructured jsonEvents (tracedOrder [255]) =
        .error (.nonUtf8Attribute "trace") := by
  have texts : Texts untracedOrder.headers := by
    unfold Texts
    decide
  refine ⟨?_, ?_, rfl⟩
  · unfold Foreign
    decide
  · rw [renderCloudeventsStructured_of_texts (by decide) (by decide) texts]
    rfl

end KrabkaGateway.Outbound
