import KrabkaGateway.Filter.Groups
import KrabkaGateway.Lib.Update

/-!
# The cache of compiled filters

`evaluate_arrow_batch_for_schema_id` of `filter.rs` keeps the filters it compiled under
the schema id and a text made from the schema. As long as the text identifies the
schema, the cache makes no difference, neither to a batch nor to the segments of a poll.
-/

namespace KrabkaGateway.Filter

open Lib

section Keys

variable (library : Library)

def arrowSchemaKey (schema : Schema) : String :=
  "|".intercalate (schema.map fun field =>
    let metadata := (field.metadata.map fun (key, value) => key ++ "=" ++ value).mergeSort
    let metadata := ",".intercalate metadata
    field.name ++ ":" ++ library.debug field.type ++ ":" ++ toString field.nullable ++ ":" ++
      metadata)

/-- The two keys are made in the same way. -/
theorem arrowSchemaKey_eq (schema : Schema) :
    arrowSchemaKey library schema = arrowSchemaCompatibilityKey library schema := rfl

end Keys

/-! ## The cache of compiled filters -/

structure ArrowFilterCacheKey where
  schemaId : Option Int
  schemaKey : String
  deriving DecidableEq, Repr

/-- The compiled filters of one subscription filter. -/
abbrev ArrowCache := ArrowFilterCacheKey → Option ArrowCompiledFilter

section Cache

variable (floats : Floats) (library : Library) (read : Bytes → Option Value)

/-- `evaluate_arrow_batch_for_schema_id`, with the cache before and after. -/
def CompiledFilter.evaluateArrowBatchForSchemaId (filter : CompiledFilter) (cache : ArrowCache)
    (schemaId : Option Int) (batch : Batch) :
    Except FilterCompileError (List Bool) × ArrowCache :=
  if filter.sql.isEmpty then (.ok (List.replicate batch.rows true), cache)
  else
    let cacheKey := { schemaId, schemaKey := arrowSchemaKey library batch.schema }
    match cache cacheKey with
    | some compiled => (compiled.evaluate library batch, cache)
    | none =>
      match ArrowCompiledFilter.compile floats library read filter.sql batch.schema with
      | .error error => (.error error, cache)
      | .ok compiled => (compiled.evaluate library batch, Lib.set cache cacheKey (some compiled))

def CompiledFilter.evaluateArrowBatches (filter : CompiledFilter) :
    ArrowCache → List (Option Int × Batch) → List (Except FilterCompileError (List Bool))
  | _, [] => []
  | cache, (schemaId, batch) :: calls =>
    let evaluated :=
      filter.evaluateArrowBatchForSchemaId floats library read cache schemaId batch
    evaluated.1 :: filter.evaluateArrowBatches evaluated.2 calls

/-- The evaluation that a segment asks for: of its batches joined, or of its rows under the id of
their schema. -/
def Segment.asks : Segment → Option (Option Int × Batch)
  | .ipc records =>
    match records.flatMap ArrowIpcRecord.batches with
    | [] => none
    | first :: others =>
      match library.concat first.schema (first :: others) with
      | .ok batch => some (none, batch)
      | .error _ => none
  | .group records =>
    match records.mapM (PolledRecord.row library read) with
    | .error _ => none
    | .ok rows =>
      match library.bridge rows with
      | .ok batch =>
        some ((records.head?.bind schemaJsonFilterSchemaId).map Int32.toInt, batch)
      | .error _ => none
  | .alone _ => none

def Segment.settle (segment : Segment) (mask : List Bool) :
    Except FilterCompileError (List FilteredRecordDecision) :=
  match segment with
  | .ipc records => .ok (ipcDecisions mask 0 records)
  | .group records => schemaJsonDecisions mask records
  | .alone _ => .ok []

def Segment.decideCached (filter : CompiledFilter) (cache : ArrowCache) (segment : Segment) :
    Except FilterCompileError (List FilteredRecordDecision) × ArrowCache :=
  match segment.asks library read with
  | none => (segment.decide floats library read filter, cache)
  | some (schemaId, batch) =>
    let evaluated :=
      filter.evaluateArrowBatchForSchemaId floats library read cache schemaId batch
    (evaluated.1 >>= segment.settle, evaluated.2)

def decideAllCached (filter : CompiledFilter) : ArrowCache → List Segment →
    Except FilterCompileError (List FilteredRecordDecision) × ArrowCache
  | cache, [] => (.ok [], cache)
  | cache, segment :: rest =>
    match segment.decideCached floats library read filter cache with
    | (.error error, cache) => (.error error, cache)
    | (.ok block, cache) =>
      let later := decideAllCached filter cache rest
      (later.1.map (block ++ ·), later.2)

variable {floats library read}

def ArrowCache.Sound (floats : Floats) (library : Library) (read : Bytes → Option Value)
    (filter : CompiledFilter) (known : Schema → Prop) (cache : ArrowCache) : Prop :=
  ∀ cacheKey compiled, cache cacheKey = some compiled → ∃ schema, known schema ∧
    arrowSchemaKey library schema = cacheKey.schemaKey ∧
    ArrowCompiledFilter.compile floats library read filter.sql schema = .ok compiled

variable {known : Schema → Prop} {filter : CompiledFilter} {cache : ArrowCache} {segment : Segment}

/-- A batch whose schema has the key of another one is evaluated by the filter for that one. -/
theorem evaluateArrowBatches_shared (first second : Batch) {compiled : ArrowCompiledFilter}
    (nonempty : filter.sql ≠ [])
    (shared : arrowSchemaKey library second.schema = arrowSchemaKey library first.schema)
    (result : ArrowCompiledFilter.compile floats library read filter.sql first.schema =
      .ok compiled) (schemaId : Option Int) :
    filter.evaluateArrowBatches floats library read (fun _ => none)
        [(schemaId, first), (schemaId, second)] =
      [compiled.evaluate library first, compiled.evaluate library second] := by
  have filled : ¬filter.sql.isEmpty = true := by simpa using nonempty
  simp only [CompiledFilter.evaluateArrowBatches, CompiledFilter.evaluateArrowBatchForSchemaId,
    if_neg filled, result, shared, set_self]

theorem Segment.decide_of_asks {schemaId : Option Int} {batch : Batch}
    (asked : segment.asks library read = some (schemaId, batch)) :
    segment.decide floats library read filter =
      filter.evaluateArrowBatch floats library read batch >>= segment.settle := by
  cases segment with
  | ipc records =>
    simp only [asks] at asked
    split at asked
    · cases asked
    · rename_i batches
      split at asked <;> cases asked
      rename_i joined
      simp only [decide, filterArrowIpcGroup, batches, joined]
      rfl
  | group records =>
    simp only [asks] at asked
    split at asked
    · cases asked
    · rename_i decoded
      split at asked <;> cases asked
      rename_i built
      simp only [decide, filterSchemaJsonGroup, decoded, bind, Except.bind, built]
      rfl
  | alone record => cases asked

variable (identified : ∀ schema other, known schema → known other →
  arrowSchemaKey library schema = arrowSchemaKey library other → schema = other)

include identified

variable (sound : cache.Sound floats library read filter known)

include sound

theorem evaluateArrowBatchForSchemaId_sound (schemaId : Option Int) {batch : Batch}
    (schema : known batch.schema) :
    (filter.evaluateArrowBatchForSchemaId floats library read cache schemaId batch).1 =
        filter.evaluateArrowBatch floats library read batch ∧
      ArrowCache.Sound floats library read filter known
        (filter.evaluateArrowBatchForSchemaId floats library read cache schemaId batch).2 := by
  unfold CompiledFilter.evaluateArrowBatchForSchemaId CompiledFilter.evaluateArrowBatch
  by_cases empty : filter.sql.isEmpty = true
  · simp only [empty, if_true]
    exact ⟨trivial, sound⟩
  · simp only [if_neg empty]
    cases found : cache ⟨schemaId, arrowSchemaKey library batch.schema⟩ with
    | some compiled =>
      obtain ⟨own, listed, same, result⟩ := sound _ _ found
      cases identified own batch.schema listed schema same
      rw [result]
      exact ⟨rfl, sound⟩
    | none =>
      cases result : ArrowCompiledFilter.compile floats library read filter.sql batch.schema with
      | error error => exact ⟨rfl, sound⟩
      | ok compiled =>
        refine ⟨rfl, fun cacheKey held stored => ?_⟩
        dsimp only at stored
        by_cases own : cacheKey = ⟨schemaId, arrowSchemaKey library batch.schema⟩
        · subst own
          rw [set_self] at stored
          cases stored
          exact ⟨batch.schema, schema, rfl, result⟩
        · rw [set_ne _ _ own] at stored
          exact sound cacheKey held stored

theorem Segment.decideCached_sound
    (schema : ∀ call, segment.asks library read = some call → known call.2.schema) :
    (segment.decideCached floats library read filter cache).1 =
        segment.decide floats library read filter ∧
      ArrowCache.Sound floats library read filter known
        (segment.decideCached floats library read filter cache).2 := by
  unfold decideCached
  cases asked : segment.asks library read with
  | none => exact ⟨rfl, sound⟩
  | some call =>
    obtain ⟨same, kept⟩ :=
      evaluateArrowBatchForSchemaId_sound identified sound call.1 (schema call asked)
    rw [decide_of_asks asked, ← same]
    exact ⟨rfl, kept⟩

/-- So the batches of a subscription are evaluated as they are without a cache. -/
theorem evaluateArrowBatches_eq {calls : List (Option Int × Batch)}
    (schemas : ∀ call ∈ calls, known call.2.schema) :
    filter.evaluateArrowBatches floats library read cache calls =
      calls.map fun call => filter.evaluateArrowBatch floats library read call.2 := by
  induction calls generalizing cache with
  | nil => rfl
  | cons call calls ih =>
    obtain ⟨schemaId, batch⟩ := call
    obtain ⟨result, kept⟩ := evaluateArrowBatchForSchemaId_sound identified sound schemaId
      (schemas _ List.mem_cons_self)
    rw [CompiledFilter.evaluateArrowBatches, List.map_cons, result,
      ih kept fun call member => schemas call (List.mem_cons_of_mem _ member)]

theorem decideAllCached_sound {parts : List Segment} (schemas : ∀ segment ∈ parts, ∀ call,
      segment.asks library read = some call → known call.2.schema) :
    (decideAllCached floats library read filter cache parts).1 =
        decideAll floats library read filter parts ∧
      ArrowCache.Sound floats library read filter known
        (decideAllCached floats library read filter cache parts).2 := by
  induction parts generalizing cache with
  | nil => exact ⟨rfl, sound⟩
  | cons segment rest ih =>
    obtain ⟨own, others⟩ := List.forall_mem_cons.mp schemas
    obtain ⟨same, kept⟩ := Segment.decideCached_sound identified sound own
    rw [decideAllCached, decideAll, ← same]
    split
    next error after decided => exact ⟨by rw [decided]; rfl, by simpa [decided] using kept⟩
    next block after decided =>
      obtain ⟨later, last⟩ := ih (by simpa [decided] using kept) others
      refine ⟨?_, last⟩
      dsimp only
      rw [decided, later]
      cases decideAll floats library read filter rest <;> rfl

/-- So a poll is decided as it is without a cache, and the next one finds a sound cache again. -/
theorem filterPolledRecords_cached {records : List PolledRecord}
    (decodes : ∀ record ∈ records, ∃ ipc, decodeArrowIpcRecord library record = .ok ipc)
    (schemas : ∀ segment ∈ segments library records, ∀ call,
      segment.asks library read = some call → known call.2.schema) :
    (decideAllCached floats library read filter cache (segments library records)).1 =
        filterPolledRecordsWithArrowBatches floats library read filter records ∧
      ArrowCache.Sound floats library read filter known
        (decideAllCached floats library read filter cache (segments library records)).2 := by
  rw [filterPolledRecordsWithArrowBatches_eq decodes]
  exact decideAllCached_sound identified sound schemas

end Cache

end KrabkaGateway.Filter
