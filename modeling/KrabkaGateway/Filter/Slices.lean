import KrabkaGateway.Filter.Parity

/-!
# Arrow records in a group and alone

`filter_arrow_ipc_group` joins the batches of several records, evaluates them once
and cuts the mask back by the row counts; `matches_arrow_ipc_record` evaluates the
batches of one record one by one. With a library that joins batches row by row
and decides each row by itself both come to the same. A poll keeps its records and
their order. Under the empty filter it also delivers them, as long as there is a
row for each of them to be delivered by.
-/

namespace KrabkaGateway.Filter

open Lib

inductive DecodedRecordFilterDecision where
  | deliver
  | drop
  | arrowIpcBatch (rowCount matchingRows : Nat)
  deriving DecidableEq, Repr

/-- One record by itself. The source reads and evaluates the batches in turns, so that for a stream
that breaks off an error of evaluating may come before that of reading. -/
def CompiledFilter.matchesArrowIpcRecord (floats : Floats) (library : Library)
    (read : Bytes → Option Value) (filter : CompiledFilter) (value : Bytes) :
    Except FilterCompileError (Option DecodedRecordFilterDecision) :=
  match arrowIpcStreamReader library value with
  | none => .ok none
  | some (.error message) => .error (.dataFusion message)
  | some (.ok batches) => do
      let masks ← batches.mapM (filter.evaluateArrowBatch floats library read)
      return some (.arrowIpcBatch (batches.map Batch.rows).sum (masks.map (List.countP id)).sum)

variable {floats : Floats} {library : Library} {read : Bytes → Option Value}

/-! ## What the library does -/

/-- The rows of `part` are those of `whole` from `offset` on. -/
structure Part (whole part : Batch) (offset : Nat) : Prop where
  schema : part.schema = whole.schema
  fits : offset + part.rows ≤ whole.rows
  cells : ∀ row < part.rows, ∀ column, part.cell row column = whole.cell (offset + row) column

/-- An expression that has a truth value or null for each row of a batch has the same ones for the
rows of a part. -/
def RowWise (expr : Batch → Except String Evaluated) : Prop :=
  ∀ whole part offset holds, Part whole part offset → expr whole = .ok (.mask holds) →
    ∃ own, expr part = .ok (.mask own) ∧ ∀ row < part.rows, own row = holds (offset + row)

/-- Joining batches keeps their rows in order. -/
def Library.Concatenates (library : Library) : Prop :=
  ∀ schema batches whole, library.concat schema batches = .ok whole →
    whole.rows = (batches.map Batch.rows).sum ∧ whole.schema = schema ∧
      ∀ before part after, batches = before ++ part :: after →
        ∀ row < part.rows, ∀ column,
          whole.cell ((before.map Batch.rows).sum + row) column = part.cell row column

def Library.DecidesRowWise (library : Library) : Prop :=
  ∀ text schema expr, library.sql text schema = .ok expr → RowWise expr

def SharedFields (library : Library) (records : List PolledRecord) : Prop :=
  ∀ first ∈ records, ∀ second ∈ records, ∀ left right,
    decodeArrowIpcRecord library first = .ok (some left) →
    decodeArrowIpcRecord library second = .ok (some right) →
    arrowIpcRecordSchemaKey library left = arrowIpcRecordSchemaKey library right →
    ∀ batch ∈ left.batches, ∀ other ∈ right.batches, batch.schema = other.schema

/-! ## Evaluating a part -/

def LooksAtRow (holds : Batch → Nat → Option Bool) : Prop :=
  ∀ batch other row place, (∀ column, batch.cell row column = other.cell place column) →
    holds batch row = holds other place

variable {schema : Schema} {holds : Batch → Nat → Option Bool}

theorem looksAtRow_toDatafusionExpr {predicate : Predicate}
    (lowered : predicate.toDatafusionExpr floats library schema = .ok holds) :
    LooksAtRow holds := by
  intro batch other row place same
  simp only [Predicate.toDatafusionExpr] at lowered
  split at lowered
  · cases lowered
  · split at lowered
    · split at lowered <;> cases lowered <;> simp [same]
    · split at lowered
      · cases lowered
      · split at lowered <;> cases lowered
        simp [same]

variable {predicates : List Predicate}

theorem looksAtRow_conjoin {combined : Batch → Nat → Option Bool} (looks : LooksAtRow combined)
    (lowered : conjoin floats library schema combined predicates = .ok holds) :
    LooksAtRow holds := by
  induction predicates generalizing combined with
  | nil =>
    cases lowered
    exact looks
  | cons predicate remaining ih =>
    unfold conjoin at lowered
    split at lowered
    · cases lowered
    · rename_i next own
      apply ih _ lowered
      intro batch other row place same
      dsimp only
      rw [looks batch other row place same,
        looksAtRow_toDatafusionExpr own batch other row place same]

theorem looksAtRow_datafusionPredicateForSchema
    (lowered : datafusionPredicateForSchema floats library schema predicates = .ok holds) :
    LooksAtRow holds := by
  unfold datafusionPredicateForSchema at lowered
  split at lowered
  · cases lowered
    intro _ _ _ _ _
    rfl
  · split at lowered
    · cases lowered
    · rename_i own
      exact looksAtRow_conjoin (looksAtRow_toDatafusionExpr own) lowered

variable {whole part : Batch} {offset : Nat}

/-- A filter that was compiled for the schema of a batch decides the rows of a part as those of the
batch. -/
theorem rowWise_compile (rowWise : library.DecidesRowWise) {sql : List Char}
    {compiled : ArrowCompiledFilter}
    (compiles : ArrowCompiledFilter.compile floats library read sql schema = .ok compiled)
    (own : whole.schema = arrowFilterSchema compiled.enumSymbolColumns schema)
    (isPart : Part whole part offset) {found : Nat → Option Bool}
    (evaluated : compiled.expr whole = .ok (.mask found)) :
    ∃ holds, compiled.expr part = .ok (.mask holds) ∧
      ∀ row < part.rows, holds row = found (offset + row) := by
  obtain ⟨columns, _, compiles⟩ := ok_of_bind compiles
  dsimp only at compiles
  split at compiles
  · cases compiles
  · split at compiles
    · obtain ⟨holds, lowered, compiles⟩ := ok_of_bind compiles
      cases compiles
      dsimp only at own evaluated ⊢
      rw [own, boundIn_self, if_pos rfl] at evaluated
      cases evaluated
      rw [isPart.schema, own, boundIn_self, if_pos rfl]
      refine ⟨_, rfl, fun row bound => ?_⟩
      exact looksAtRow_datafusionPredicateForSchema lowered part whole row (offset + row)
        (isPart.cells row bound)
    · split at compiles
      · cases compiles
      · rename_i expr evaluates
        cases compiles
        exact rowWise _ _ _ evaluates whole part offset found isPart evaluated

theorem schema_enumSymbolFilterBatch {columns : List ArrowEnumSymbolColumn}
    {batch projected : Batch}
    (projects : enumSymbolFilterBatch library columns batch = .ok projected) :
    projected.schema = arrowFilterSchema columns batch.schema := by
  unfold enumSymbolFilterBatch at projects
  split at projects
  · rename_i none
    cases projects
    rw [List.isEmpty_iff.mp none, arrowFilterSchema_nil]
  · obtain ⟨_, _, projects⟩ := ok_of_bind projects
    cases projects
    rfl

theorem part_enumSymbolFilterBatch {columns : List ArrowEnumSymbolColumn} {projected : Batch}
    (isPart : Part whole part offset)
    (projects : enumSymbolFilterBatch library columns whole = .ok projected) :
    ∃ own, enumSymbolFilterBatch library columns part = .ok own ∧ Part projected own offset ∧
      own.rows = part.rows := by
  unfold enumSymbolFilterBatch at projects ⊢
  by_cases none : columns.isEmpty
  · rw [if_pos none] at projects ⊢
    cases projects
    exact ⟨part, rfl, isPart, rfl⟩
  · rw [if_neg none] at projects ⊢
    obtain ⟨_, checked, projects⟩ := ok_of_bind projects
    cases projects
    rw [isPart.schema, checked]
    refine ⟨_, rfl, ⟨rfl, isPart.fits, ?_⟩, rfl⟩
    intro row bound column
    dsimp only
    split <;> rw [isPart.cells row bound column]

theorem map_range_slice (value : Nat → Bool) {count total : Nat} (fits : offset + count ≤ total) :
    (List.range count).map (fun row => value (offset + row)) =
      (((List.range total).map value).drop offset).take count := by
  apply List.ext_getElem?
  intro index
  rw [List.getElem?_map, List.getElem?_take, List.getElem?_drop, List.getElem?_map]
  by_cases bound : index < count
  · rw [List.getElem?_range bound, List.getElem?_range (by omega), if_pos bound]
    rfl
  · rw [List.getElem?_eq_none (by simpa using bound), if_neg bound]
    rfl

variable {filter : CompiledFilter} {mask : List Bool}

theorem evaluateArrowBatch_part (rowWise : library.DecidesRowWise) (isPart : Part whole part offset)
    (evaluated : filter.evaluateArrowBatch floats library read whole = .ok mask) :
    filter.evaluateArrowBatch floats library read part =
      .ok ((mask.drop offset).take part.rows) := by
  have fits := isPart.fits
  unfold CompiledFilter.evaluateArrowBatch at evaluated ⊢
  by_cases unfiltered : filter.sql.isEmpty
  · rw [if_pos unfiltered] at evaluated ⊢
    cases evaluated
    rw [List.drop_replicate, List.take_replicate, Nat.min_eq_left (by omega)]
  · rw [if_neg unfiltered] at evaluated ⊢
    rw [isPart.schema]
    obtain ⟨compiled, compiles, evaluated⟩ := ok_of_bind evaluated
    rw [compiles]
    obtain ⟨projected, projects, evaluated⟩ := ok_of_bind evaluated
    obtain ⟨own, ownProjects, ownPart, rows⟩ := part_enumSymbolFilterBatch isPart projects
    split at evaluated
    · cases evaluated
    · cases evaluated
    · rename_i holds found
      cases evaluated
      obtain ⟨decides, ownFound, agrees⟩ := rowWise_compile rowWise compiles
        (schema_enumSymbolFilterBatch projects) ownPart found
      have slice : (List.range own.rows).map (fun row => decides row == some true) =
          (((List.range projected.rows).map fun row => holds row == some true).drop offset).take
            own.rows := by
        rw [← map_range_slice (fun row => holds row == some true) ownPart.fits]
        apply List.map_congr_left
        intro row member
        rw [agrees row (List.mem_range.mp member)]
      rw [← rows, ← slice]
      simp only [bind, Except.bind, ArrowCompiledFilter.evaluate, ownProjects, ownFound, pure,
        Except.pure]

/-! ## A record in its group -/

variable {all before after : List Batch}

/-- The batches of one record, evaluated one by one: their masks joined are the slice of the mask
of the group. -/
theorem mapM_evaluateArrowBatch_slice (rowWise : library.DecidesRowWise)
    (concatenates : library.Concatenates) (joined : library.concat schema all = .ok whole)
    (evaluated : filter.evaluateArrowBatch floats library read whole = .ok mask)
    {batches : List Batch} (cut : all = before ++ (batches ++ after))
    (fields : ∀ batch ∈ batches, batch.schema = schema) :
    ∃ masks, batches.mapM (filter.evaluateArrowBatch floats library read) = .ok masks ∧
      masks.flatten =
        (mask.drop (before.map Batch.rows).sum).take (batches.map Batch.rows).sum := by
  obtain ⟨size, sameSchema, cells⟩ := concatenates _ _ _ joined
  induction batches generalizing before with
  | nil => exact ⟨[], rfl, by simp⟩
  | cons batch batches ih =>
    have isPart : Part whole batch (before.map Batch.rows).sum := by
      refine ⟨?_, ?_, ?_⟩
      · rw [fields batch List.mem_cons_self, sameSchema]
      · rw [size, cut]
        simp
      · intro row bound column
        exact (cells before batch (batches ++ after) (by simpa using cut) row bound column).symm
    have first := evaluateArrowBatch_part rowWise isPart evaluated
    have moved : all = (before ++ [batch]) ++ (batches ++ after) := by simpa using cut
    obtain ⟨masks, later, flat⟩ := ih moved
      fun batch member => fields batch (List.mem_cons_of_mem _ member)
    refine ⟨(mask.drop (before.map Batch.rows).sum).take batch.rows :: masks, ?_, ?_⟩
    · rw [List.mapM_cons, first, later]
      rfl
    · simp only [List.flatten_cons, flat, List.map_append, List.map_cons, List.map_nil,
        List.sum_append, List.sum_cons, List.sum_nil, Nat.add_zero]
      rw [List.take_add, List.drop_drop]

def DecidedAlone (floats : Floats) (library : Library) (read : Bytes → Option Value)
    (filter : CompiledFilter) (record : PolledRecord) (decision : FilteredRecordDecision) : Prop :=
  decision.record = record ∧ (arrowIpcStreamReader library record.value ≠ none →
    ∃ rowCount matchingRows,
      filter.matchesArrowIpcRecord floats library read record.value =
          .ok (some (.arrowIpcBatch rowCount matchingRows)) ∧
        (decision.delivers = true ↔ 0 < matchingRows))

theorem matchesArrowIpcRecord_of_masks {ipc : ArrowIpcRecord}
    (decoded : decodeArrowIpcRecord library ipc.record = .ok (some ipc)) {masks : List (List Bool)}
    (evaluated : ipc.batches.mapM (filter.evaluateArrowBatch floats library read) = .ok masks) :
    filter.matchesArrowIpcRecord floats library read ipc.record.value =
      .ok (some (.arrowIpcBatch ipc.rowCount (masks.flatten.countP id))) := by
  unfold decodeArrowIpcRecord at decoded
  unfold CompiledFilter.matchesArrowIpcRecord
  rcases opened : arrowIpcStreamReader library ipc.record.value with _ | (_ | batches)
  · rw [opened] at decoded
    cases decoded
  · rw [opened] at decoded
    cases decoded
  · rw [opened] at decoded
    obtain rfl : batches = ipc.batches := by
      have same := Option.some.inj (Except.ok.inj decoded)
      rw [← same]
    dsimp only
    rw [evaluated, List.countP_flatten]
    rfl

variable {members : List ArrowIpcRecord}

theorem ipcDecisions_alone (rowWise : library.DecidesRowWise) (concatenates : library.Concatenates)
    (joined : library.concat schema all = .ok whole)
    (evaluated : filter.evaluateArrowBatch floats library read whole = .ok mask)
    (cut : all = before ++ members.flatMap ArrowIpcRecord.batches)
    (decodes : ∀ ipc ∈ members, decodeArrowIpcRecord library ipc.record = .ok (some ipc))
    (fields : ∀ ipc ∈ members, ∀ batch ∈ ipc.batches, batch.schema = schema) :
    List.Forall₂ (DecidedAlone floats library read filter) (members.map ArrowIpcRecord.record)
      (ipcDecisions mask (before.map Batch.rows).sum members) := by
  induction members generalizing before with
  | nil => exact .nil
  | cons ipc members ih =>
    rw [List.flatMap_cons] at cut
    obtain ⟨masks, own, flat⟩ := mapM_evaluateArrowBatch_slice rowWise concatenates joined evaluated
      cut (fields ipc List.mem_cons_self)
    refine .cons ⟨FilteredRecordDecision.record_of _ _, fun _ => ?_⟩ ?_
    · refine ⟨_, _, matchesArrowIpcRecord_of_masks (decodes ipc List.mem_cons_self) own, ?_⟩
      rw [FilteredRecordDecision.delivers_of, flat]
      exact decide_eq_true_iff
    · have moved : all = (before ++ ipc.batches) ++ members.flatMap ArrowIpcRecord.batches := by
        rw [cut, List.append_assoc]
      have later := ih moved
        (fun member among => decodes member (List.mem_cons_of_mem _ among))
        (fun member among => fields member (List.mem_cons_of_mem _ among))
      rw [List.map_append, List.sum_append] at later
      exact later

variable {records : List PolledRecord}

/-- A group of Arrow records that is decided. -/
theorem ipc_decidedAlone (rowWise : library.DecidesRowWise) (concatenates : library.Concatenates)
    (shared : SharedFields library records)
    (sourced : (Segment.ipc members).Sourced library records)
    (decides : (Segment.ipc members).Decides floats library read filter) :
    (Segment.ipc members).Decided floats library read filter
      (DecidedAlone floats library read filter) := by
  obtain ⟨block, decided⟩ := decides
  refine ⟨block, decided, ?_⟩
  have decodes := fun ipc member => (sourced.1 ipc member).2
  rcases filterArrowIpcGroup_ok floats library read decided with
    ⟨none, rfl⟩ | ⟨first, others, whole, mask, batches, joined, evaluated, rfl⟩
  · apply List.forall₂_iff_zip.mpr
    refine ⟨by simp [Segment.records], fun {record decision} pair => ?_⟩
    simp only [Segment.records, List.zip_map', List.mem_map, Prod.mk.injEq] at pair
    obtain ⟨ipc, member, rfl, rfl⟩ := pair
    have noBatch : ipc.batches = [] := List.flatMap_eq_nil_iff.mp none ipc member
    have nothing : ipc.batches.mapM (filter.evaluateArrowBatch floats library read) = .ok [] := by
      rw [noBatch]
      rfl
    refine ⟨rfl, fun _ => ⟨_, _, matchesArrowIpcRecord_of_masks (decodes ipc member) nothing, ?_⟩⟩
    simp [FilteredRecordDecision.delivers]
  · obtain ⟨holder, holds, inside⟩ : ∃ ipc ∈ members, first ∈ ipc.batches :=
      List.mem_flatMap.mp (by rw [batches]; exact List.mem_cons_self)
    have whole : first :: others = [] ++ members.flatMap ArrowIpcRecord.batches := batches.symm
    apply ipcDecisions_alone rowWise concatenates joined evaluated whole decodes
    intro ipc member batch among
    exact shared _ (sourced.1 ipc member).1 _ (sourced.1 holder holds).1 ipc holder
      (decodes ipc member) (decodes holder holds) (sourced.2 ipc member holder holds) batch among
      first inside

theorem reader_of_decode_none {record : PolledRecord}
    (decoded : decodeArrowIpcRecord library record = .ok none) :
    arrowIpcStreamReader library record.value = none := by
  unfold decodeArrowIpcRecord at decoded
  split at decoded
  · assumption
  · cases decoded
  · cases decoded

/-- A group of records with a schema that is decided keeps its records. -/
theorem group_decidedAlone {members : List PolledRecord}
    (sourced : (Segment.group members).Sourced library records)
    (decides : (Segment.group members).Decides floats library read filter) :
    (Segment.group members).Decided floats library read filter
      (DecidedAlone floats library read filter) := by
  obtain ⟨block, decided⟩ := decides
  refine ⟨block, decided, ?_⟩
  obtain ⟨rows, _, decided⟩ := ok_of_bind decided
  split at decided
  · cases decided
  · obtain ⟨mask, _, decided⟩ := ok_of_bind decided
    unfold schemaJsonDecisions at decided
    split at decided
    · cases decided
    · rename_i size
      cases decided
      rw [not_not] at size
      apply List.forall₂_iff_get.mpr
      refine ⟨by simp [Segment.records, size], fun index bound _ => ?_⟩
      simp only [Segment.records] at bound ⊢
      have noStream := reader_of_decode_none
        (sourced members[index] (List.getElem_mem bound)).2.2
      refine ⟨by simp, fun stream => absurd noStream stream⟩

theorem forall₂_decidedAlone {decisions : List FilteredRecordDecision}
    (related : List.Forall₂ (DecidedAlone floats library read filter) records decisions) :
    decisions.map FilteredRecordDecision.record = records ∧
      ∀ decision ∈ decisions, DecidedAlone floats library read filter decision.record decision := by
  induction related with
  | nil => simp
  | cons first _ ih =>
    obtain ⟨inOrder, alone⟩ := ih
    refine ⟨by rw [List.map_cons, first.1, inOrder], List.forall_mem_cons.mpr ⟨?_, alone⟩⟩
    rw [first.1]
    exact first

/-- In a poll that succeeds the decisions are on the records of the poll in their order, and an
Arrow IPC record is delivered when it has a matching row by itself. -/
theorem grouped_decisions_are_alone (concatenates : library.Concatenates)
    (rowWise : library.DecidesRowWise) {filter : CompiledFilter} {records : List PolledRecord}
    (shared : SharedFields library records) {decisions : List FilteredRecordDecision}
    (result : filterPolledRecordsWithArrowBatches floats library read filter records =
      .ok decisions) :
    decisions.map FilteredRecordDecision.record = records ∧
      ∀ decision ∈ decisions, arrowIpcStreamReader library decision.record.value ≠ none →
        ∃ rowCount matchingRows,
          filter.matchesArrowIpcRecord floats library read decision.record.value =
              .ok (some (.arrowIpcBatch rowCount matchingRows)) ∧
            (decision.delivers = true ↔ 0 < matchingRows) := by
  obtain ⟨decodes, decides⟩ := filterPolledRecordsWithArrowBatches_decides result
  have decided : ∀ segment ∈ segments library records,
      segment.Decided floats library read filter (DecidedAlone floats library read filter) := by
    intro segment member
    have sourced := sourced_segments records segment member
    have own := decides segment member
    cases segment with
    | ipc members => exact ipc_decidedAlone rowWise concatenates shared sourced own
    | group members => exact group_decidedAlone sourced own
    | alone record =>
      have noStream := reader_of_decode_none sourced.2
      exact ⟨_, rfl, .cons ⟨by simp [filterJsonFallbackRecord],
        fun stream => absurd noStream stream⟩ .nil⟩
  obtain ⟨same, again, related⟩ := filterPolledRecordsWithArrowBatches_ok decodes decided
  obtain rfl : same = decisions := Except.ok.inj (again.symm.trans result)
  obtain ⟨inOrder, alone⟩ := forall₂_decidedAlone related
  exact ⟨inOrder, fun decision member => (alone decision member).2⟩

/-! ## A library of streams -/

def joinedCell : List Batch → Nat → Nat → Option FieldValue
  | [], _, _ => none
  | batch :: batches, row, column =>
    if row < batch.rows then batch.cell row column
    else joinedCell batches (row - batch.rows) column

theorem joinedCell_append {row : Nat} (bound : row < part.rows) (column : Nat) :
    joinedCell (before ++ part :: after) ((before.map Batch.rows).sum + row) column =
      part.cell row column := by
  induction before with
  | nil => simp [joinedCell, bound]
  | cons batch before ih =>
    have place : ((batch :: before).map Batch.rows).sum + row - batch.rows =
        (before.map Batch.rows).sum + row := by
      simp only [List.map_cons, List.sum_cons]
      omega
    rw [List.cons_append, joinedCell, if_neg (by simp; omega), place]
    exact ih

def statusColumn : Schema := [textField "status"]

def orderBatch (paid : Bool) : Batch where
  schema := statusColumn
  rows := 1
  cell row _ := textCell [if paid then paidOrder else openOrder] row "status"

def orderStream (value : Bytes) : Except String (List Batch) :=
  (value.drop 5).mapM fun byte =>
    if byte ≤ 1 then .ok (orderBatch (byte == 1)) else .error "invalid batch"

def streamLibrary : Library :=
  { textLibrary exactFloats with
    stream := fun value => some (orderStream value)
    concat := fun schema batches =>
      .ok ⟨schema, (batches.map Batch.rows).sum, joinedCell batches⟩ }

theorem streamLibrary_concatenates : streamLibrary.Concatenates := by
  intro schema batches whole joined
  cases joined
  refine ⟨rfl, rfl, ?_⟩
  rintro before part after rfl row bound column
  exact joinedCell_append bound column

theorem streamLibrary_rowWise : streamLibrary.DecidesRowWise := by
  intro text schema expr parsed
  cases parsed

theorem streamLibrary_sharedFields (records : List PolledRecord) :
    SharedFields streamLibrary records := by
  have schema : ∀ record ipc, decodeArrowIpcRecord streamLibrary record = .ok (some ipc) →
      ∀ batch ∈ ipc.batches, batch.schema = statusColumn := by
    intro record ipc decoded batch member
    unfold decodeArrowIpcRecord arrowIpcStreamReader at decoded
    split at decoded
    · cases decoded
    · cases decoded
    · rename_i batches opened
      cases decoded
      split at opened
      · obtain ⟨byte, _, own⟩ := mem_of_mapM_ok (Option.some.inj opened) batch member
        split at own <;> cases own
        rfl
      · cases opened
  intro first _ second _ left right leftDecoded rightDecoded _ batch member other otherMember
  rw [schema first left leftDecoded batch member,
    schema second right rightDecoded other otherMember]

def streamOf (orders : Bytes) : PolledRecord := ⟨[1, 0, 0, 0, 0] ++ orders, none, none⟩

theorem grouped_orders_are_alone :
    filterPolledRecordsWithArrowBatches exactFloats streamLibrary readOrder statusFilter
        [streamOf [0, 1], streamOf [0], orderOf [1], streamOf [], streamOf [1, 1]] =
      .ok [.deliver (streamOf [0, 1]), .filter (streamOf [0]), .deliver (orderOf [1]),
        .filter (streamOf []), .deliver (streamOf [1, 1])] ∧
      ∃ rowCount matchingRows,
        statusFilter.matchesArrowIpcRecord exactFloats streamLibrary readOrder
            (streamOf [0, 1]).value = .ok (some (.arrowIpcBatch rowCount matchingRows)) ∧
          ((FilteredRecordDecision.deliver (streamOf [0, 1])).delivers = true ↔
            0 < matchingRows) := by
  have result : filterPolledRecordsWithArrowBatches exactFloats streamLibrary readOrder
      statusFilter [streamOf [0, 1], streamOf [0], orderOf [1], streamOf [], streamOf [1, 1]] =
      .ok [.deliver (streamOf [0, 1]), .filter (streamOf [0]), .deliver (orderOf [1]),
        .filter (streamOf []), .deliver (streamOf [1, 1])] := by
    decide +kernel
  obtain ⟨_, alone⟩ := grouped_decisions_are_alone streamLibrary_concatenates streamLibrary_rowWise
    (streamLibrary_sharedFields _) result
  have opened : arrowIpcStreamReader streamLibrary (streamOf [0, 1]).value ≠ none := by
    decide +kernel
  exact ⟨result, alone (.deliver (streamOf [0, 1])) List.mem_cons_self opened⟩

/-! ## The empty filter -/

theorem ipcDecisions_replicate {total : Nat} (rows : ∀ ipc ∈ members, 0 < ipc.rowCount)
    (fits : offset + (members.map ArrowIpcRecord.rowCount).sum ≤ total) :
    ipcDecisions (List.replicate total true) offset members =
      members.map fun ipc => .deliver ipc.record := by
  induction members generalizing offset with
  | nil => rfl
  | cons ipc members ih =>
    have own := rows ipc List.mem_cons_self
    simp only [List.map_cons, List.sum_cons] at fits
    have counted : 0 < countTrueMaskValues (List.replicate total true) offset ipc.rowCount := by
      rw [countTrueMaskValues, List.drop_replicate, List.take_replicate, List.countP_replicate]
      simp only [id, if_true]
      omega
    rw [ipcDecisions, List.map_cons, ih
      (fun member among => rows member (List.mem_cons_of_mem _ among)) (by omega)]
    simp [FilteredRecordDecision.of, counted]

theorem sum_rowCount (members : List ArrowIpcRecord) :
    (members.map ArrowIpcRecord.rowCount).sum =
      ((members.flatMap ArrowIpcRecord.batches).map Batch.rows).sum := by
  induction members with
  | nil => rfl
  | cons ipc members ih => simp [ArrowIpcRecord.rowCount, ← ih]

def Joins (library : Library) (members : List ArrowIpcRecord) : Prop :=
  ∀ first others, members.flatMap ArrowIpcRecord.batches = first :: others →
    ∃ whole, library.concat first.schema (first :: others) = .ok whole ∧
      whole.rows = ((first :: others).map Batch.rows).sum

def Bridges (library : Library) (read : Bytes → Option Value) (members : List PolledRecord) :
    Prop :=
  ∃ rows batch, members.mapM (PolledRecord.row library read) = .ok rows ∧
    library.bridge rows = .ok batch ∧ batch.rows = members.length

section Unfiltered

variable {filter : CompiledFilter}

variable (unfiltered : filter.sql = [])
include unfiltered

theorem evaluateArrowBatch_unfiltered (batch : Batch) :
    filter.evaluateArrowBatch floats library read batch = .ok (List.replicate batch.rows true) := by
  simp [CompiledFilter.evaluateArrowBatch, unfiltered]

theorem ipc_unfiltered (rows : ∀ ipc ∈ members, 0 < ipc.rowCount) (joins : Joins library members) :
    filterArrowIpcGroup floats library read filter members =
      .ok (members.map fun ipc => .deliver ipc.record) := by
  have counts := sum_rowCount members
  unfold filterArrowIpcGroup
  cases found : members.flatMap ArrowIpcRecord.batches with
  | nil =>
    cases members with
    | nil => rfl
    | cons ipc members =>
      have noBatch : ipc.batches = [] :=
        List.flatMap_eq_nil_iff.mp found ipc List.mem_cons_self
      have own := rows ipc List.mem_cons_self
      simp [ArrowIpcRecord.rowCount, noBatch] at own
  | cons first others =>
    obtain ⟨whole, joined, size⟩ := joins first others found
    rw [found, ← size] at counts
    simp only [joined, evaluateArrowBatch_unfiltered unfiltered]
    simp only [bind, Except.bind, pure, Except.pure]
    rw [ipcDecisions_replicate rows (by omega)]

theorem group_unfiltered {members : List PolledRecord} (bridges : Bridges library read members) :
    filterSchemaJsonGroup floats library read filter members =
      .ok (members.map .deliver) := by
  obtain ⟨rows, batch, decoded, built, size⟩ := bridges
  have delivered : List.zipWith FilteredRecordDecision.of members
      (List.replicate members.length true) = members.map .deliver := by
    rw [← List.map_const', List.zipWith_map_right, List.zipWith_self]
    rfl
  simp only [filterSchemaJsonGroup, schemaJsonDecisions, decoded, bind, Except.bind, built,
    evaluateArrowBatch_unfiltered unfiltered]
  simp [size, delivered]

/-- The empty filter delivers every record of a poll in order, if Arrow IPC records decode to rows
that can be joined and the JSON of records with a schema can be bridged. -/
theorem unfiltered_delivers_all {records : List PolledRecord}
    (decodes : ∀ record ∈ records, ∃ ipc, decodeArrowIpcRecord library record = .ok ipc)
    (rows : ∀ record ∈ records, ∀ ipc,
      decodeArrowIpcRecord library record = .ok (some ipc) → 0 < ipc.rowCount)
    (joins : ∀ members, .ipc members ∈ segments library records → Joins library members)
    (bridges : ∀ members, .group members ∈ segments library records →
      Bridges library read members) :
    filterPolledRecordsWithArrowBatches floats library read filter records =
      .ok (records.map .deliver) := by
  have decided : ∀ segment ∈ segments library records,
      segment.Decided floats library read filter fun record decision =>
        decision = .deliver record := by
    intro segment member
    have sourced := sourced_segments records segment member
    cases segment with
    | ipc members =>
      refine ⟨_, ipc_unfiltered unfiltered
        (fun ipc among => rows ipc.record (sourced.1 ipc among).1 ipc (sourced.1 ipc among).2)
        (joins members member), ?_⟩
      rw [Segment.records, List.forall₂_map_left_iff, List.forall₂_map_right_iff,
        List.forall₂_same]
      exact fun _ _ => rfl
    | group members =>
      refine ⟨_, group_unfiltered unfiltered (bridges members member), ?_⟩
      rw [Segment.records, List.forall₂_map_right_iff, List.forall₂_same]
      exact fun _ _ => rfl
    | alone record =>
      exact ⟨_, rfl, .cons (by simp [filterJsonFallbackRecord, unfiltered,
        FilteredRecordDecision.of]) .nil⟩
  obtain ⟨decisions, result, related⟩ := filterPolledRecordsWithArrowBatches_ok decodes decided
  rw [result]
  congr 1
  clear result decided bridges joins rows decodes
  induction related with
  | nil => rfl
  | cons first _ ih => rw [List.map_cons, first, ih]

end Unfiltered

def emptyFilter : CompiledFilter := ⟨[], []⟩

theorem unfiltered_orders_are_delivered :
    CompiledFilter.compile exactFloats true [] = .ok emptyFilter ∧
      filterPolledRecordsWithArrowBatches exactFloats streamLibrary readOrder emptyFilter
          [streamOf [0, 1], orderOf [1], unframed [9]] =
        .ok [.deliver (streamOf [0, 1]), .deliver (orderOf [1]), .deliver (unframed [9])] := by
  have cut : segments streamLibrary [streamOf [0, 1], orderOf [1], unframed [9]] =
      [.ipc [⟨streamOf [0, 1], [orderBatch false, orderBatch true]⟩], .group [orderOf [1]],
        .alone (unframed [9])] := rfl
  refine ⟨by decide, unfiltered_delivers_all rfl ?_ ?_ ?_ ?_⟩
  · intro record member
    simp only [List.mem_cons, List.not_mem_nil, or_false] at member
    rcases member with rfl | rfl | rfl <;> exact ⟨_, rfl⟩
  · intro record member ipc decoded
    simp only [List.mem_cons, List.not_mem_nil, or_false] at member
    rcases member with rfl | rfl | rfl <;> cases decoded
    decide
  · exact fun _ _ first others _ => ⟨_, rfl, rfl⟩
  · intro members member
    rw [cut] at member
    simp only [List.mem_cons, Segment.group.injEq, reduceCtorEq, List.not_mem_nil, or_false,
      false_or] at member
    subst member
    exact ⟨[paidOrder], _, by simp [PolledRecord.row, orderOf, readOrder, bind, Except.bind, pure,
      Except.pure], rfl, rfl⟩

/-- Under the empty filter a stream without rows is filtered out, and one that does not decode fails
the poll. -/
theorem empty_stream_is_filtered :
    CompiledFilter.compile exactFloats true [] = .ok emptyFilter ∧
      filterPolledRecordsWithArrowBatches exactFloats streamLibrary readOrder emptyFilter
          [streamOf []] = .ok [.filter (streamOf [])] ∧
      filterPolledRecordsWithArrowBatches exactFloats streamLibrary readOrder emptyFilter
          [streamOf [0], streamOf [2]] = .error (.dataFusion "invalid batch") :=
  ⟨by decide, by decide +kernel, by decide +kernel⟩

end KrabkaGateway.Filter
