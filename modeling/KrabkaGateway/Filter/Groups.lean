import Mathlib.Algebra.GroupWithZero.Nat
import KrabkaGateway.Filter.Arrow
import KrabkaGateway.Lib.Fallible

/-!
# Filtering polled records

`filter_polled_records` of `streaming.rs`. Neighbouring Arrow IPC records of one schema are
evaluated as one batch, and so are neighbouring schema-registry records of one schema id,
whose JSON goes through the row bridge. Any other record is decided by itself. The poll is
cut into such segments, and the decision on a schema-registry record is compared with that
on the same JSON without a schema. Batches are evaluated without the cache of compiled
filters; `filterPolledRecords_cached` adds it.
-/

namespace KrabkaGateway.Filter

open Lib

structure PolledRecord where
  value : Bytes
  json : Option Bytes
  schemaId : Option Int32
  deriving DecidableEq, Repr

inductive FilteredRecordDecision where
  | deliver (record : PolledRecord)
  | filter (record : PolledRecord)
  deriving DecidableEq, Repr

namespace FilteredRecordDecision

def of (record : PolledRecord) (matching : Bool) : FilteredRecordDecision :=
  if matching then .deliver record else .filter record

def record : FilteredRecordDecision → PolledRecord
  | .deliver record => record
  | .filter record => record

def delivers : FilteredRecordDecision → Bool
  | .deliver _ => true
  | .filter _ => false

@[simp]
theorem record_of (record : PolledRecord) (matching : Bool) :
    (of record matching).record = record := by
  cases matching <;> rfl

@[simp]
theorem delivers_of (record : PolledRecord) (matching : Bool) :
    (of record matching).delivers = matching := by
  cases matching <;> rfl

end FilteredRecordDecision

variable (floats : Floats) (library : Library) (read : Bytes → Option Value)

/-! ## Arrow IPC records -/

def arrowIpcContinuationMarker : Bytes := [0xff, 0xff, 0xff, 0xff]

def holdsFirstMessage (framed : Bytes) : Bool :=
  match framed with
  | b0 :: b1 :: b2 :: b3 :: message =>
    let length := b0.toNat + 2 ^ 8 * b1.toNat + 2 ^ 16 * b2.toNat + 2 ^ 24 * b3.toNat
    decide (length < 2 ^ 31 ∧ length ≠ 0 ∧ length ≤ message.length)
  | _ => false

def arrowIpcStreamReader (value : Bytes) : Option (Except String (List Batch)) :=
  if holdsFirstMessage ((value.dropPrefix? arrowIpcContinuationMarker).getD value) then
    library.stream value
  else none

structure ArrowIpcRecord where
  record : PolledRecord
  batches : List Batch

def ArrowIpcRecord.rowCount (record : ArrowIpcRecord) : Nat :=
  (record.batches.map Batch.rows).sum

def decodeArrowIpcRecord (record : PolledRecord) :
    Except FilterCompileError (Option ArrowIpcRecord) :=
  match arrowIpcStreamReader library record.value with
  | none => .ok none
  | some (.error message) => .error (.dataFusion message)
  | some (.ok batches) => .ok (some ⟨record, batches⟩)

theorem record_of_decode {library : Library} {record : PolledRecord} {ipc : ArrowIpcRecord}
    (decoded : decodeArrowIpcRecord library record = .ok (some ipc)) : ipc.record = record := by
  unfold decodeArrowIpcRecord at decoded
  split at decoded <;> cases decoded
  rfl

def arrowSchemaCompatibilityKey (schema : Schema) : String :=
  "|".intercalate (schema.map fun field =>
    let metadata := (field.metadata.map fun (key, value) => key ++ "=" ++ value).mergeSort
    field.name ++ ":" ++ library.debug field.type ++ ":" ++ toString field.nullable ++ ":" ++
      ",".intercalate metadata)

def arrowIpcRecordSchemaKey (record : ArrowIpcRecord) : String :=
  match record.batches with
  | [] => "empty-arrow-ipc-stream"
  | first :: _ => arrowSchemaCompatibilityKey library first.schema

def countTrueMaskValues (mask : List Bool) (start length : Nat) : Nat :=
  ((mask.drop start).take length).countP id

def ipcDecisions (mask : List Bool) : Nat → List ArrowIpcRecord → List FilteredRecordDecision
  | _, [] => []
  | offset, record :: records =>
    .of record.record (decide (0 < countTrueMaskValues mask offset record.rowCount)) ::
      ipcDecisions mask (offset + record.rowCount) records

def filterArrowIpcGroup (filter : CompiledFilter) (records : List ArrowIpcRecord) :
    Except FilterCompileError (List FilteredRecordDecision) :=
  match records.flatMap ArrowIpcRecord.batches with
  | [] => .ok (records.map fun record => .filter record.record)
  | first :: others =>
    match library.concat first.schema (first :: others) with
    | .error message => .error (.dataFusion message)
    | .ok batch => do
        let mask ← filter.evaluateArrowBatch floats library read batch
        return ipcDecisions mask 0 records

theorem record_ipcDecisions (mask : List Bool) (offset : Nat) (records : List ArrowIpcRecord) :
    (ipcDecisions mask offset records).map FilteredRecordDecision.record =
      records.map ArrowIpcRecord.record := by
  induction records generalizing offset with
  | nil => rfl
  | cons record records ih => simp [ipcDecisions, ih]

variable {filter : CompiledFilter} {decisions : List FilteredRecordDecision}

/-- A group without batches is filtered out; any other is decided by the mask of its batches
joined. -/
theorem filterArrowIpcGroup_ok {records : List ArrowIpcRecord}
    (evaluated : filterArrowIpcGroup floats library read filter records = .ok decisions) :
    (records.flatMap ArrowIpcRecord.batches = [] ∧
        decisions = records.map fun record => .filter record.record) ∨
      ∃ first others batch mask, records.flatMap ArrowIpcRecord.batches = first :: others ∧
        library.concat first.schema (first :: others) = .ok batch ∧
        filter.evaluateArrowBatch floats library read batch = .ok mask ∧
        decisions = ipcDecisions mask 0 records := by
  unfold filterArrowIpcGroup at evaluated
  split at evaluated
  · rename_i none
    cases evaluated
    exact Or.inl ⟨none, rfl⟩
  · rename_i first others some
    split at evaluated
    · cases evaluated
    · rename_i batch joined
      cases mask : filter.evaluateArrowBatch floats library read batch with
      | error error =>
        rw [mask] at evaluated
        cases evaluated
      | ok values =>
        rw [mask] at evaluated
        cases evaluated
        exact Or.inr ⟨first, others, batch, values, some, joined, mask, rfl⟩

theorem record_filterArrowIpcGroup {records : List ArrowIpcRecord}
    (evaluated : filterArrowIpcGroup floats library read filter records = .ok decisions) :
    decisions.map FilteredRecordDecision.record = records.map ArrowIpcRecord.record := by
  rcases filterArrowIpcGroup_ok floats library read evaluated with
    ⟨_, rfl⟩ | ⟨_, _, _, mask, _, _, _, rfl⟩
  · simp [FilteredRecordDecision.record]
  · exact record_ipcDecisions mask 0 records

/-! ## Records with a schema, and others -/

def PolledRecord.row (record : PolledRecord) : Except FilterCompileError Value :=
  match record.json with
  | none => .error (.dataFusion "schema-registry row bridge requires decoded JSON rows")
  | some json =>
    match read json with
    | none =>
      .error (.dataFusion
        ("schema-registry row bridge JSON decode failed: " ++ library.decodeError json))
    | some value => .ok value

def schemaJsonDecisions (mask : List Bool) (records : List PolledRecord) :
    Except FilterCompileError (List FilteredRecordDecision) :=
  if mask.length ≠ records.length then
    .error (.dataFusion ("schema-registry row bridge produced " ++ toString mask.length ++
      " filter rows for " ++ toString records.length ++ " records"))
  else .ok (List.zipWith .of records mask)

def filterSchemaJsonGroup (filter : CompiledFilter) (records : List PolledRecord) :
    Except FilterCompileError (List FilteredRecordDecision) := do
  let rows ← records.mapM (PolledRecord.row library read)
  match library.bridge rows with
  | .error message => .error (.dataFusion message)
  | .ok batch =>
    let mask ← filter.evaluateArrowBatch floats library read batch
    schemaJsonDecisions mask records

def structuredJsonOrUnframedValue (record : PolledRecord) : Option Bytes :=
  record.json.or (if (read record.value).isSome then some record.value else none)

def filterJsonFallbackRecord (filter : CompiledFilter) (record : PolledRecord) :
    FilteredRecordDecision :=
  .of record (filter.sql.isEmpty ||
    filter.matchesStructuredJson floats read (structuredJsonOrUnframedValue read record))

def schemaJsonFilterSchemaId (record : PolledRecord) : Option Int32 :=
  if record.json.isSome then record.schemaId else none

/-! ## The loop -/

structure RecordGroup (Key Record : Type) where
  key : Option Key
  records : List Record

namespace RecordGroup

variable {Key Record : Type} [DecidableEq Key]

def empty : RecordGroup Key Record := ⟨none, []⟩

def accepts (group : RecordGroup Key Record) (key : Key) : Bool :=
  group.key.all fun own => decide (own = key)

def push (group : RecordGroup Key Record) (key : Key) (record : Record) :
    RecordGroup Key Record :=
  ⟨group.key.or (some key), group.records ++ [record]⟩

def drainFilteringInto
    (evaluate : List Record → Except FilterCompileError (List FilteredRecordDecision))
    (group : RecordGroup Key Record) (decisions : List FilteredRecordDecision) :
    Except FilterCompileError (List FilteredRecordDecision) :=
  if group.records.isEmpty then .ok decisions
  else do
    let block ← evaluate group.records
    return decisions ++ block

end RecordGroup

abbrev ArrowIpcRecordGroup := RecordGroup String ArrowIpcRecord
abbrev SchemaJsonRecordGroup := RecordGroup Int32 PolledRecord

/-- The groups in hand and the decisions so far. -/
structure PollState where
  arrow : ArrowIpcRecordGroup
  schemaJson : SchemaJsonRecordGroup
  decisions : List FilteredRecordDecision

namespace PollState

def drainArrow (filter : CompiledFilter) (state : PollState) :
    Except FilterCompileError PollState := do
  let decisions ← state.arrow.drainFilteringInto
    (filterArrowIpcGroup floats library read filter) state.decisions
  return { state with arrow := .empty, decisions }

def drainSchemaJson (filter : CompiledFilter) (state : PollState) :
    Except FilterCompileError PollState := do
  let decisions ← state.schemaJson.drainFilteringInto
    (filterSchemaJsonGroup floats library read filter) state.decisions
  return { state with schemaJson := .empty, decisions }

end PollState

def pollRecord (filter : CompiledFilter) (state : PollState) (record : PolledRecord) :
    Except FilterCompileError PollState := do
  match ← decodeArrowIpcRecord library record with
  | none =>
    let state ← state.drainArrow floats library read filter
    match schemaJsonFilterSchemaId record with
    | some id =>
      let state ← if state.schemaJson.accepts id then .ok state
        else state.drainSchemaJson floats library read filter
      return { state with schemaJson := state.schemaJson.push id record }
    | none =>
      let state ← state.drainSchemaJson floats library read filter
      return { state with
        decisions := state.decisions ++ [filterJsonFallbackRecord floats read filter record] }
  | some ipc =>
    let state ← state.drainSchemaJson floats library read filter
    let key := arrowIpcRecordSchemaKey library ipc
    let state ← if state.arrow.accepts key then .ok state
      else state.drainArrow floats library read filter
    return { state with arrow := state.arrow.push key ipc }

def filterPolledRecordsWithArrowBatches (filter : CompiledFilter) (records : List PolledRecord) :
    Except FilterCompileError (List FilteredRecordDecision) := do
  let state ← records.foldlM (pollRecord floats library read filter) ⟨.empty, .empty, []⟩
  let state ← state.drainArrow floats library read filter
  let state ← state.drainSchemaJson floats library read filter
  return state.decisions

def filterPolledRecords (filter : CompiledFilter) (records : List PolledRecord) :
    Except FilterCompileError (List Bool) :=
  (filterPolledRecordsWithArrowBatches floats library read filter records).map
    (List.map FilteredRecordDecision.delivers)

/-! ## Segments of a poll -/

/-- What is decided at once. -/
inductive Segment where
  | ipc (records : List ArrowIpcRecord)
  | group (records : List PolledRecord)
  | alone (record : PolledRecord)

namespace Segment

def records : Segment → List PolledRecord
  | .ipc records => records.map ArrowIpcRecord.record
  | .group records => records
  | .alone record => [record]

def decide (filter : CompiledFilter) :
    Segment → Except FilterCompileError (List FilteredRecordDecision)
  | .ipc records => filterArrowIpcGroup floats library read filter records
  | .group records => filterSchemaJsonGroup floats library read filter records
  | .alone record => .ok [filterJsonFallbackRecord floats read filter record]

end Segment

def RecordGroup.flush {Key Record : Type} (segment : List Record → Segment)
    (group : RecordGroup Key Record) : List Segment :=
  if group.records.isEmpty then [] else [segment group.records]

/-- The segments that are decided with these groups in hand. A record that does not decode ends
the poll. -/
def segmentsFrom (arrow : ArrowIpcRecordGroup) (schemaJson : SchemaJsonRecordGroup) :
    List PolledRecord → List Segment
  | [] => arrow.flush .ipc ++ schemaJson.flush .group
  | record :: rest =>
    match decodeArrowIpcRecord library record with
    | .error _ => []
    | .ok none =>
      arrow.flush .ipc ++
        match schemaJsonFilterSchemaId record with
        | some id =>
          if schemaJson.accepts id then
            segmentsFrom .empty (schemaJson.push id record) rest
          else
            schemaJson.flush .group ++
              segmentsFrom .empty (RecordGroup.empty.push id record) rest
        | none => schemaJson.flush .group ++ .alone record :: segmentsFrom .empty .empty rest
    | .ok (some ipc) =>
      let key := arrowIpcRecordSchemaKey library ipc
      schemaJson.flush .group ++
        if arrow.accepts key then segmentsFrom (arrow.push key ipc) .empty rest
        else arrow.flush .ipc ++ segmentsFrom (RecordGroup.empty.push key ipc) .empty rest

def segments (records : List PolledRecord) : List Segment :=
  segmentsFrom library .empty .empty records

/-- The decisions on segments one after another. -/
def decideAll (filter : CompiledFilter) :
    List Segment → Except FilterCompileError (List FilteredRecordDecision)
  | [] => .ok []
  | segment :: rest => do
    let block ← segment.decide floats library read filter
    let later ← decideAll filter rest
    return block ++ later

section Segments

variable {floats library read} {filter : CompiledFilter} {parts : List Segment}

/-! ## A poll by its segments -/

theorem decideAll_append (first second : List Segment) :
    decideAll floats library read filter (first ++ second) = do
      let block ← decideAll floats library read filter first
      let later ← decideAll floats library read filter second
      return block ++ later := by
  induction first with
  | nil =>
    simp only [List.nil_append, decideAll, bind, Except.bind]
    cases decideAll floats library read filter second <;> rfl
  | cons segment rest ih =>
    simp only [List.cons_append, decideAll, ih, bind, Except.bind]
    cases segment.decide floats library read filter with
    | error error => rfl
    | ok block =>
      cases decideAll floats library read filter rest with
      | error error => rfl
      | ok later =>
        cases decideAll floats library read filter second <;>
          simp [pure, Except.pure]

theorem drainFilteringInto_eq {Key Record : Type} (kind : List Record → Segment)
    (group : RecordGroup Key Record)
    (evaluate : List Record → Except FilterCompileError (List FilteredRecordDecision))
    (evaluates : ∀ records, (kind records).decide floats library read filter = evaluate records)
    (decisions : List FilteredRecordDecision) :
    group.drainFilteringInto evaluate decisions =
      (decideAll floats library read filter (group.flush kind)).map (decisions ++ ·) := by
  unfold RecordGroup.flush RecordGroup.drainFilteringInto
  split
  · simp [decideAll, Except.map]
  · rw [← evaluates]
    cases decided : (kind group.records).decide floats library read filter <;>
      simp [decideAll, decided, bind, Except.bind, pure, Except.pure, Except.map]

variable (state : PollState)

theorem drainArrow_eq : state.drainArrow floats library read filter =
    (decideAll floats library read filter (state.arrow.flush .ipc)).map fun block =>
      ⟨.empty, state.schemaJson, state.decisions ++ block⟩ := by
  rw [PollState.drainArrow, drainFilteringInto_eq .ipc state.arrow
    (filterArrowIpcGroup floats library read filter) fun _ => rfl]
  cases decideAll floats library read filter (state.arrow.flush .ipc) <;> rfl

theorem drainSchemaJson_eq : state.drainSchemaJson floats library read filter =
    (decideAll floats library read filter (state.schemaJson.flush .group)).map fun block =>
      ⟨state.arrow, .empty, state.decisions ++ block⟩ := by
  rw [PollState.drainSchemaJson, drainFilteringInto_eq .group state.schemaJson
    (filterSchemaJsonGroup floats library read filter) fun _ => rfl]
  cases decideAll floats library read filter (state.schemaJson.flush .group) <;> rfl

variable (floats read filter) in
/-- One record: the segments that end with it are decided, and the others are those of the groups
in hand afterwards. -/
theorem pollRecord_eq {record : PolledRecord} {ipc : Option ArrowIpcRecord}
    (decoded : decodeArrowIpcRecord library record = .ok ipc) :
    ∃ arrow schemaJson ended,
      (∀ rest, segmentsFrom library state.arrow state.schemaJson (record :: rest) =
        ended ++ segmentsFrom library arrow schemaJson rest) ∧
      pollRecord floats library read filter state record =
        (decideAll floats library read filter ended).map fun block =>
          ⟨arrow, schemaJson, state.decisions ++ block⟩ := by
  simp only [pollRecord, decoded, drainArrow_eq, drainSchemaJson_eq, bind, Except.bind]
  cases ipc with
  | none =>
    cases found : schemaJsonFilterSchemaId record with
    | some id =>
      by_cases accepted : state.schemaJson.accepts id
      · refine ⟨.empty, state.schemaJson.push id record, state.arrow.flush .ipc,
          fun rest => by simp only [segmentsFrom, decoded, found, if_pos accepted], ?_⟩
        cases decideAll floats library read filter (state.arrow.flush .ipc) <;>
          simp [Except.map, accepted, pure, Except.pure]
      · refine ⟨.empty, RecordGroup.empty.push id record,
          state.arrow.flush .ipc ++ state.schemaJson.flush .group, fun rest => by
          simp only [segmentsFrom, decoded, found, if_neg accepted, List.append_assoc], ?_⟩
        rw [decideAll_append]
        cases decideAll floats library read filter (state.arrow.flush .ipc) <;>
          cases second : decideAll floats library read filter (state.schemaJson.flush .group) <;>
          simp [Except.map, accepted, second, bind, Except.bind, pure, Except.pure]
    | none =>
      refine ⟨.empty, .empty,
        state.arrow.flush .ipc ++ (state.schemaJson.flush .group ++ [.alone record]),
        fun rest => by simp only [segmentsFrom, decoded, found, List.append_assoc,
          List.singleton_append], ?_⟩
      rw [decideAll_append, decideAll_append]
      cases decideAll floats library read filter (state.arrow.flush .ipc) <;>
        cases second : decideAll floats library read filter (state.schemaJson.flush .group) <;>
        simp [decideAll, Segment.decide, second, Except.map, bind, Except.bind, pure, Except.pure]
  | some ipc =>
    by_cases accepted : state.arrow.accepts (arrowIpcRecordSchemaKey library ipc)
    · refine ⟨state.arrow.push (arrowIpcRecordSchemaKey library ipc) ipc, .empty,
        state.schemaJson.flush .group,
        fun rest => by simp only [segmentsFrom, decoded, if_pos accepted], ?_⟩
      cases decideAll floats library read filter (state.schemaJson.flush .group) <;>
        simp [Except.map, accepted, pure, Except.pure]
    · refine ⟨RecordGroup.empty.push (arrowIpcRecordSchemaKey library ipc) ipc, .empty,
        state.schemaJson.flush .group ++ state.arrow.flush .ipc, fun rest => by
        simp only [segmentsFrom, decoded, if_neg accepted, List.append_assoc], ?_⟩
      rw [decideAll_append]
      cases decideAll floats library read filter (state.schemaJson.flush .group) <;>
        cases second : decideAll floats library read filter (state.arrow.flush .ipc) <;>
        simp [Except.map, accepted, second, bind, Except.bind, pure, Except.pure]

variable {records : List PolledRecord}

theorem pollRecords_eq
    (decodes : ∀ record ∈ records, ∃ ipc, decodeArrowIpcRecord library record = .ok ipc) :
    (do
      let last ← records.foldlM (pollRecord floats library read filter) state
      let last ← last.drainArrow floats library read filter
      let last ← last.drainSchemaJson floats library read filter
      return last.decisions) =
      (decideAll floats library read filter
        (segmentsFrom library state.arrow state.schemaJson records)).map
          (state.decisions ++ ·) := by
  induction records generalizing state with
  | nil =>
    rw [segmentsFrom, decideAll_append]
    simp only [List.foldlM_nil, drainArrow_eq, drainSchemaJson_eq, bind, Except.bind, pure,
      Except.pure]
    cases decideAll floats library read filter (state.arrow.flush .ipc) <;>
      cases second : decideAll floats library read filter (state.schemaJson.flush .group) <;>
      simp [Except.map, second]
  | cons record rest ih =>
    obtain ⟨ipc, decoded⟩ := decodes record List.mem_cons_self
    obtain ⟨arrow, schemaJson, ended, split, polled⟩ :=
      pollRecord_eq floats read filter state decoded
    rw [split, decideAll_append, List.foldlM_cons, polled]
    cases decideAll floats library read filter ended with
    | error error => rfl
    | ok block =>
      refine (ih ⟨arrow, schemaJson, state.decisions ++ block⟩ fun record member =>
        decodes record (List.mem_cons_of_mem _ member)).trans ?_
      simp only [bind, Except.bind]
      cases decideAll floats library read filter (segmentsFrom library arrow schemaJson rest) <;>
        simp [Except.map, pure, Except.pure]

/-- A poll whose records decode gives the decisions on its segments. -/
theorem filterPolledRecordsWithArrowBatches_eq
    (decodes : ∀ record ∈ records, ∃ ipc, decodeArrowIpcRecord library record = .ok ipc) :
    filterPolledRecordsWithArrowBatches floats library read filter records =
      decideAll floats library read filter (segments library records) := by
  refine (pollRecords_eq ⟨.empty, .empty, []⟩ decodes).trans ?_
  rw [segments]
  cases decideAll floats library read filter (segmentsFrom library .empty .empty records) <;> rfl

/-! ## The records of the segments -/

theorem flatMap_flush {Key Record : Type} (kind : List Record → Segment)
    (nothing : (kind []).records = []) (group : RecordGroup Key Record) :
    (group.flush kind).flatMap Segment.records = (kind group.records).records := by
  unfold RecordGroup.flush
  split
  next none => rw [List.isEmpty_iff.mp none, nothing, List.flatMap_nil]
  next => rw [List.flatMap_singleton]

/-- The segments have the records in order. At most one group in hand is not empty. -/
theorem flatMap_segmentsFrom {arrow : ArrowIpcRecordGroup} {schemaJson : SchemaJsonRecordGroup}
    (single : arrow.records = [] ∨ schemaJson.records = [])
    (decodes : ∀ record ∈ records, ∃ ipc, decodeArrowIpcRecord library record = .ok ipc) :
    (segmentsFrom library arrow schemaJson records).flatMap Segment.records =
      arrow.records.map ArrowIpcRecord.record ++ schemaJson.records ++ records := by
  induction records generalizing arrow schemaJson with
  | nil => simp [segmentsFrom, flatMap_flush .ipc rfl, flatMap_flush .group rfl, Segment.records]
  | cons record rest ih =>
    obtain ⟨⟨ipc, decoded⟩, later⟩ := List.forall_mem_cons.mp decodes
    have ipcs (arrow : ArrowIpcRecordGroup) := @ih arrow .empty (Or.inr rfl) later
    have jsons (schemaJson : SchemaJsonRecordGroup) := @ih .empty schemaJson (Or.inl rfl) later
    rw [segmentsFrom, decoded]
    cases ipc with
    | none =>
      cases found : schemaJsonFilterSchemaId record with
      | some id =>
        dsimp only
        split <;> simp only [List.flatMap_append, flatMap_flush .ipc rfl, flatMap_flush .group rfl,
          jsons] <;> simp [Segment.records, RecordGroup.push, RecordGroup.empty]
      | none =>
        simp only [List.flatMap_append, List.flatMap_cons, flatMap_flush .ipc rfl,
          flatMap_flush .group rfl, jsons]
        simp [Segment.records, RecordGroup.empty]
    | some ipc =>
      have own := record_of_decode decoded
      dsimp only
      -- Only one of the groups has records, so that their order does not matter.
      split <;> simp only [List.flatMap_append, flatMap_flush .ipc rfl, flatMap_flush .group rfl,
        ipcs] <;> rcases single with none | none <;>
        simp [Segment.records, RecordGroup.push, RecordGroup.empty, none, own]

/-! ## What is decided -/

def Segment.Decides (floats : Floats) (library : Library) (read : Bytes → Option Value)
    (filter : CompiledFilter) (segment : Segment) : Prop :=
  ∃ block, segment.decide floats library read filter = .ok block

def Segment.Decided (floats : Floats) (library : Library) (read : Bytes → Option Value)
    (filter : CompiledFilter) (relates : PolledRecord → FilteredRecordDecision → Prop)
    (segment : Segment) : Prop :=
  ∃ block, segment.decide floats library read filter = .ok block ∧
    List.Forall₂ relates segment.records block

variable {relates : PolledRecord → FilteredRecordDecision → Prop}
  {decisions : List FilteredRecordDecision}

theorem decideAll_ok
    (decided : ∀ segment ∈ parts, segment.Decided floats library read filter relates) :
    ∃ block, decideAll floats library read filter parts = .ok block ∧
      List.Forall₂ relates (parts.flatMap Segment.records) block := by
  induction parts with
  | nil => exact ⟨[], rfl, .nil⟩
  | cons segment rest ih =>
    obtain ⟨⟨block, evaluated, related⟩, others⟩ := List.forall_mem_cons.mp decided
    obtain ⟨later, result, following⟩ := ih others
    refine ⟨block ++ later, ?_, List.rel_append related following⟩
    rw [decideAll, evaluated, result]
    rfl

theorem decides_of_decideAll
    (result : decideAll floats library read filter parts = .ok decisions) :
    ∀ segment ∈ parts, segment.Decides floats library read filter := by
  induction parts generalizing decisions with
  | nil => simp
  | cons segment rest ih =>
    obtain ⟨block, evaluated, result⟩ := ok_of_bind result
    obtain ⟨later, result, _⟩ := ok_of_bind result
    exact List.forall_mem_cons.mpr ⟨⟨block, evaluated⟩, ih result⟩

theorem decodes_of_pollRecords {last : PollState}
    (run : records.foldlM (pollRecord floats library read filter) state = .ok last) :
    ∀ record ∈ records, ∃ ipc, decodeArrowIpcRecord library record = .ok ipc := by
  induction records generalizing state with
  | nil => simp
  | cons record rest ih =>
    rw [List.foldlM_cons] at run
    obtain ⟨next, polled, run⟩ := ok_of_bind run
    obtain ⟨ipc, decoded, _⟩ := ok_of_bind polled
    exact List.forall_mem_cons.mpr ⟨⟨ipc, decoded⟩, ih next run⟩

/-- A poll is decided record by record if its segments are. -/
theorem filterPolledRecordsWithArrowBatches_ok
    (decodes : ∀ record ∈ records, ∃ ipc, decodeArrowIpcRecord library record = .ok ipc)
    (decided : ∀ segment ∈ segments library records,
      segment.Decided floats library read filter relates) :
    ∃ decisions,
      filterPolledRecordsWithArrowBatches floats library read filter records = .ok decisions ∧
        List.Forall₂ relates records decisions := by
  rw [filterPolledRecordsWithArrowBatches_eq decodes]
  obtain ⟨block, result, related⟩ := decideAll_ok decided
  rw [segments, flatMap_segmentsFrom (Or.inl rfl) decodes] at related
  exact ⟨block, result, related⟩

/-- In a poll that succeeds every record decodes and every segment is decided. -/
theorem filterPolledRecordsWithArrowBatches_decides
    (result : filterPolledRecordsWithArrowBatches floats library read filter records =
      .ok decisions) :
    (∀ record ∈ records, ∃ ipc, decodeArrowIpcRecord library record = .ok ipc) ∧
      ∀ segment ∈ segments library records, segment.Decides floats library read filter := by
  obtain ⟨last, run, _⟩ := ok_of_bind result
  have decodes := decodes_of_pollRecords _ run
  rw [filterPolledRecordsWithArrowBatches_eq decodes] at result
  exact ⟨decodes, decides_of_decideAll result⟩

/-! ## Where the records of a segment are from -/

variable {Record : Type} {kind : List Record → Segment}

def Segment.Sourced (library : Library) (records : List PolledRecord) : Segment → Prop
  | .ipc members => (∀ ipc ∈ members, ipc.record ∈ records ∧
        decodeArrowIpcRecord library ipc.record = .ok (some ipc)) ∧
      ∀ first ∈ members, ∀ second ∈ members,
        arrowIpcRecordSchemaKey library first = arrowIpcRecordSchemaKey library second
  | .group members => ∀ record ∈ members, record ∈ records ∧ record.json.isSome ∧
      decodeArrowIpcRecord library record = .ok none
  | .alone record => record ∈ records ∧ decodeArrowIpcRecord library record = .ok none

theorem sourced_flush {Key : Type} {group : RecordGroup Key Record} {all : List PolledRecord}
    (sourced : (kind group.records).Sourced library all) :
    ∀ segment ∈ group.flush kind, segment.Sourced library all := by
  intro segment member
  unfold RecordGroup.flush at member
  split at member
  · cases member
  · obtain rfl := List.mem_singleton.mp member
    exact sourced

/-- The group is named by a key that fits each of its records. -/
def RecordGroup.Holds {Key : Type} (fits : Key → Record → Prop) (group : RecordGroup Key Record) :
    Prop :=
  ∀ record ∈ group.records, ∃ key, group.key = some key ∧ fits key record

theorem RecordGroup.holds_empty {Key : Type} (fits : Key → Record → Prop) :
    (empty : RecordGroup Key Record).Holds fits := by
  intro record member
  cases member

theorem RecordGroup.Holds.push {Key : Type} [DecidableEq Key] {fits : Key → Record → Prop}
    {group : RecordGroup Key Record} {key : Key} {record : Record} (holds : group.Holds fits)
    (accepted : group.accepts key = true) (own : fits key record) :
    (group.push key record).Holds fits := by
  have named : group.key.or (some key) = some key := by
    cases found : group.key with
    | none => rfl
    | some other => simpa [accepts, found] using accepted
  refine List.forall_mem_append.mpr ⟨fun member among => ?_,
    List.forall_mem_singleton.mpr ⟨key, named, own⟩⟩
  obtain ⟨other, found, fitting⟩ := holds member among
  exact ⟨other, by rw [RecordGroup.push, found, Option.some_or], fitting⟩

section Sourced

variable (library) (all : List PolledRecord)

def FromIpc (key : String) (ipc : ArrowIpcRecord) : Prop :=
  key = arrowIpcRecordSchemaKey library ipc ∧ ipc.record ∈ all ∧
    decodeArrowIpcRecord library ipc.record = .ok (some ipc)

def FromJson (_ : Int32) (record : PolledRecord) : Prop :=
  record ∈ all ∧ record.json.isSome ∧ decodeArrowIpcRecord library record = .ok none

variable {library all} {arrow : ArrowIpcRecordGroup} {schemaJson : SchemaJsonRecordGroup}

theorem sourced_arrow (holds : arrow.Holds (FromIpc library all)) :
    ∀ segment ∈ arrow.flush .ipc, segment.Sourced library all := by
  refine sourced_flush ⟨fun ipc among => ?_, fun first among second other => ?_⟩
  · obtain ⟨_, _, own⟩ := holds ipc among
    exact own.2
  · obtain ⟨key, named, own, _⟩ := holds first among
    obtain ⟨_, same, others, _⟩ := holds second other
    rw [← own, ← others]
    exact Option.some.inj (named.symm.trans same)

theorem sourced_schemaJson (holds : schemaJson.Holds (FromJson library all)) :
    ∀ segment ∈ schemaJson.flush .group, segment.Sourced library all := by
  refine sourced_flush fun record among => ?_
  obtain ⟨_, _, own⟩ := holds record among
  exact own

theorem sourced_segmentsFrom {records : List PolledRecord} (within : records ⊆ all)
    (arrowHolds : arrow.Holds (FromIpc library all))
    (jsonHolds : schemaJson.Holds (FromJson library all)) :
    ∀ segment ∈ segmentsFrom library arrow schemaJson records, segment.Sourced library all := by
  have noIpc := RecordGroup.holds_empty (FromIpc library all)
  have noJson := RecordGroup.holds_empty (FromJson library all)
  induction records generalizing arrow schemaJson with
  | nil =>
    rw [segmentsFrom]
    exact List.forall_mem_append.mpr ⟨sourced_arrow arrowHolds, sourced_schemaJson jsonHolds⟩
  | cons record rest ih =>
    have here : record ∈ all := within List.mem_cons_self
    have later : rest ⊆ all := fun _ member => within (List.mem_cons_of_mem _ member)
    rw [segmentsFrom]
    cases decoded : decodeArrowIpcRecord library record with
    | error error => simp
    | ok ipc =>
      cases ipc with
      | none =>
        refine List.forall_mem_append.mpr ⟨sourced_arrow arrowHolds, ?_⟩
        cases found : schemaJsonFilterSchemaId record with
        | none =>
          refine List.forall_mem_append.mpr ⟨sourced_schemaJson jsonHolds, ?_⟩
          exact List.forall_mem_cons.mpr ⟨⟨here, decoded⟩, ih later noIpc noJson⟩
        | some id =>
          have own : FromJson library all id record := by
            unfold schemaJsonFilterSchemaId at found
            split at found
            · exact ⟨here, by assumption, decoded⟩
            · cases found
          dsimp only
          split
          next accepted => exact ih later noIpc (jsonHolds.push accepted own)
          next =>
            exact List.forall_mem_append.mpr
              ⟨sourced_schemaJson jsonHolds, ih later noIpc (noJson.push rfl own)⟩
      | some ipc =>
        have own : FromIpc library all (arrowIpcRecordSchemaKey library ipc) ipc := by
          have same := record_of_decode decoded
          exact ⟨rfl, same ▸ here, by rw [same, decoded]⟩
        refine List.forall_mem_append.mpr ⟨sourced_schemaJson jsonHolds, ?_⟩
        split
        next accepted => exact ih later (arrowHolds.push accepted own) noJson
        next =>
          exact List.forall_mem_append.mpr
            ⟨sourced_arrow arrowHolds, ih later (noIpc.push rfl own) noJson⟩

end Sourced

theorem sourced_segments (records : List PolledRecord) :
    ∀ segment ∈ segments library records, segment.Sourced library records :=
  sourced_segmentsFrom (List.Subset.refl records) (RecordGroup.holds_empty _)
    (RecordGroup.holds_empty _)

end Segments

end KrabkaGateway.Filter
