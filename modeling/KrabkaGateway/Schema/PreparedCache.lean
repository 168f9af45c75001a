import KrabkaGateway.Lib.FifoCache
import KrabkaGateway.Lib.Run
import KrabkaGateway.Lib.Update
import KrabkaGateway.Schema.Decode

/-!
# The cache of prepared schemas

`SchemaRegistryCodec::prepared` of `schema/codec.rs`. A call takes the slot of its
schema id under the lock of the cache, and under the lock of the slot it finds the
schema compiled or compiles it. In between other calls may run, and the slot may
leave the cache while the call holds it.
-/

namespace KrabkaGateway.Schema

open Lib Lib.Run

def preparedSchemaCapacity : Nat :=
  1024

/-- Where the slots of the ids stand. -/
abbrev PreparedCache := FifoCache Int32 Nat

/-- `id` is history: what the slot was made for. -/
structure PreparedSlot (Message : Type) where
  id : Int32
  prepared : Option (PreparedSchema Message)

inductive PreparedCall (Message : Type) where
  | idle
  | holding (id : Int32) (format : SchemaFormat) (schema : String) (slot : Nat)
  | done (id : Int32) (format : SchemaFormat) (schema : String)
      (result : Except CodecError (PreparedSchema Message))

/-- `inserted` and `evicted` are the ids that came into the cache and that left it, in order, and
`compiled` the calls that compiled their schema; these are history. -/
structure CodecState (Message : Type) where
  cache : PreparedCache
  slots : List (PreparedSlot Message)
  calls : Nat → PreparedCall Message
  inserted : List Int32
  evicted : List Int32
  compiled : List Nat

inductive CodecAction where
  | slot (call : Nat) (id : Int32) (format : SchemaFormat) (schema : String)
  | getOrPrepare (call : Nat)

variable {Message : Type} (formats : Formats Message)

namespace PreparedSlot

def getOrPrepare (slot : PreparedSlot Message) (format : SchemaFormat) (schema : String) :
    PreparedSlot Message × Except CodecError (PreparedSchema Message) :=
  match slot.prepared with
  | some prepared => (slot, .ok prepared)
  | none =>
    match PreparedSchema.new formats format schema with
    | .ok prepared => ({ slot with prepared := some prepared }, .ok prepared)
    | .error error => (slot, .error error)

end PreparedSlot

namespace CodecState

def initial : CodecState Message where
  cache := .empty
  slots := []
  calls := fun _ => .idle
  inserted := []
  evicted := []
  compiled := []

/-- `PreparedCache::slot`, with a new slot at the end of the others. -/
def slot (state : CodecState Message) (id : Int32) : CodecState Message × Nat :=
  match state.cache.find id with
  | some slot => (state, slot)
  | none =>
    ({ state with
        cache := state.cache.insert preparedSchemaCapacity id state.slots.length
        slots := state.slots ++ [{ id, prepared := none }]
        inserted := state.inserted ++ [id]
        evicted := state.evicted ++ (state.cache.evictee preparedSchemaCapacity).toList },
      state.slots.length)

def step (state : CodecState Message) : CodecAction → Option (CodecState Message)
  | .slot call id format schema =>
    match state.calls call with
    | .idle =>
      let (next, slot) := state.slot id
      some { next with calls := set next.calls call (.holding id format schema slot) }
    | _ => none
  | .getOrPrepare call =>
    match state.calls call with
    | .holding id format schema slot =>
      match state.slots[slot]? with
      | none => none
      | some found =>
        let (after, result) := found.getOrPrepare formats format schema
        some { state with
          slots := state.slots.set slot after
          calls := set state.calls call (.done id format schema result)
          compiled :=
            if found.prepared.isNone then state.compiled ++ [call] else state.compiled }
    | _ => none

end CodecState

/-- The schemas of the registry do not change: a call comes with those of its id. -/
def CodecAction.Asks (schemaOf : Int32 → SchemaFormat × String) : CodecAction → Prop
  | .slot _ id format schema => schemaOf id = (format, schema)
  | .getOrPrepare _ => True

def CodecState.SlotOf (state : CodecState Message) (id : Int32) (slot : Nat) : Prop :=
  ∃ found, state.slots[slot]? = some found ∧ found.id = id

def PreparedSlot.Faithful (schemaOf : Int32 → SchemaFormat × String)
    (slot : PreparedSlot Message) : Prop :=
  ∀ prepared, slot.prepared = some prepared →
    PreparedSchema.new formats (schemaOf slot.id).1 (schemaOf slot.id).2 = .ok prepared

structure CodecState.Coherent (schemaOf : Int32 → SchemaFormat × String)
    (state : CodecState Message) : Prop where
  formed : state.cache.WellFormed preparedSchemaCapacity
  fifo : state.inserted = state.evicted ++ state.cache.order
  cached : ∀ entry ∈ state.cache.entries, state.SlotOf entry.1 entry.2
  faithful : ∀ slot ∈ state.slots, slot.Faithful formats schemaOf
  holding : ∀ call id format schema slot, state.calls call = .holding id format schema slot →
    schemaOf id = (format, schema) ∧ state.SlotOf id slot
  done : ∀ call id format schema result, state.calls call = .done id format schema result →
    result = PreparedSchema.new formats format schema ∧
      ∀ error, result = .error error → call ∈ state.compiled

namespace CodecState

variable {formats} {schemaOf : Int32 → SchemaFormat × String}

theorem coherent_initial : (initial : CodecState Message).Coherent formats schemaOf where
  formed := FifoCache.wellFormed_empty
  fifo := rfl
  cached := nofun
  faithful := nofun
  holding := nofun
  done := nofun

variable {state : CodecState Message} {id : Int32}

theorem SlotOf.append {next : CodecState Message} {slot : Nat} {more : List (PreparedSlot Message)}
    (owned : state.SlotOf id slot) (grown : next.slots = state.slots ++ more) :
    next.SlotOf id slot := by
  obtain ⟨found, place, named⟩ := owned
  refine ⟨found, ?_, named⟩
  rw [grown, List.getElem?_append_left (List.getElem?_eq_some_iff.mp place).1, place]

theorem SlotOf.fill {next : CodecState Message} {slot filled : Nat}
    {before after : PreparedSlot Message} (owned : state.SlotOf id slot)
    (place : state.slots[filled]? = some before) (same : after.id = before.id)
    (changed : next.slots = state.slots.set filled after) : next.SlotOf id slot := by
  obtain ⟨found, here, named⟩ := owned
  by_cases own : filled = slot
  · subst own
    rw [place] at here
    cases here
    refine ⟨after, ?_, same.trans named⟩
    rw [changed, List.getElem?_set_self (List.getElem?_eq_some_iff.mp place).1]
  · refine ⟨found, ?_, named⟩
    rw [changed, List.getElem?_set_ne own, here]

theorem Coherent.slot (coherent : state.Coherent formats schemaOf) (id : Int32) :
    (state.slot id).1.Coherent formats schemaOf ∧
      (state.slot id).1.SlotOf id (state.slot id).2 := by
  unfold CodecState.slot
  cases found : state.cache.find id with
  | some slot => exact ⟨coherent, coherent.cached _ (FifoCache.mem_of_find found)⟩
  | none =>
    have fresh : id ∉ state.cache.order := by
      rw [← coherent.formed.find_isSome, found]
      decide
    have own : SlotOf { state with slots := state.slots ++ [{ id, prepared := none }] } id
        state.slots.length := ⟨{ id, prepared := none }, by simp, rfl⟩
    refine ⟨⟨coherent.formed.insert (by decide) fresh _, ?_, ?_, ?_, ?_, coherent.done⟩, own⟩
    · dsimp only
      rw [List.append_assoc, FifoCache.order_insert, ← List.append_assoc, ← coherent.fifo]
    · intro entry listed
      rcases FifoCache.mem_insert listed with rfl | kept
      · exact own
      · exact (coherent.cached entry kept).append rfl
    · intro slot listed
      rcases List.mem_append.mp listed with kept | new
      · exact coherent.faithful slot kept
      · rw [List.mem_singleton.mp new]
        nofun
    · intro call id format schema slot held
      obtain ⟨asked, owned⟩ := coherent.holding call id format schema slot held
      exact ⟨asked, owned.append rfl⟩

theorem Coherent.hold (coherent : state.Coherent formats schemaOf) (call : Nat)
    {format : SchemaFormat} {schema : String} {slot : Nat} (asked : schemaOf id = (format, schema))
    (owned : state.SlotOf id slot) :
    Coherent formats schemaOf
      { state with calls := set state.calls call (.holding id format schema slot) } where
  formed := coherent.formed
  fifo := coherent.fifo
  cached := coherent.cached
  faithful := coherent.faithful
  holding other id' format' schema' slot' held := by
    rcases set_cases held with ⟨_, ⟨⟩⟩ | ⟨_, kept⟩
    · exact ⟨asked, owned⟩
    · exact coherent.holding other id' format' schema' slot' kept
  done other id' format' schema' result finished := by
    rcases set_cases finished with ⟨_, ⟨⟩⟩ | ⟨_, kept⟩
    exact coherent.done other id' format' schema' result kept

end CodecState

variable {formats} in
theorem PreparedSlot.getOrPrepare_eq {schemaOf : Int32 → SchemaFormat × String}
    {slot : PreparedSlot Message} (faithful : slot.Faithful formats schemaOf)
    {format : SchemaFormat} {schema : String} (asked : schemaOf slot.id = (format, schema)) :
    (slot.getOrPrepare formats format schema).2 = PreparedSchema.new formats format schema ∧
    (slot.getOrPrepare formats format schema).1.id = slot.id ∧
    (slot.getOrPrepare formats format schema).1.Faithful formats schemaOf ∧
    ∀ error, (slot.getOrPrepare formats format schema).2 = .error error → slot.prepared = none := by
  unfold PreparedSlot.getOrPrepare
  cases kept : slot.prepared with
  | some prepared =>
    have compiled := faithful prepared kept
    rw [asked] at compiled
    exact ⟨compiled.symm, rfl, faithful, nofun⟩
  | none =>
    cases compiles : PreparedSchema.new formats format schema with
    | error error => exact ⟨rfl, rfl, faithful, fun _ _ => rfl⟩
    | ok prepared =>
      refine ⟨rfl, rfl, ?_, nofun⟩
      rintro _ ⟨⟩
      rw [asked]
      exact compiles

namespace CodecState

variable {formats} {schemaOf : Int32 → SchemaFormat × String}

variable {state : CodecState Message}

theorem Coherent.step {next : CodecState Message} {action : CodecAction}
    (coherent : state.Coherent formats schemaOf) (asks : action.Asks schemaOf)
    (taken : state.step formats action = some next) : next.Coherent formats schemaOf := by
  cases action with
  | slot call id format schema =>
    simp only [CodecState.step] at taken
    split at taken
    · cases taken
      obtain ⟨after, owned⟩ := coherent.slot id
      exact after.hold call asks owned
    · cases taken
  | getOrPrepare call =>
    simp only [CodecState.step] at taken
    split at taken
    · rename_i id format schema slot held
      obtain ⟨asked, found, place, rfl⟩ := coherent.holding call id format schema slot held
      rw [place] at taken
      cases taken
      obtain ⟨result, named, faithful, retried⟩ := PreparedSlot.getOrPrepare_eq
        (coherent.faithful found (List.mem_of_getElem? place)) asked
      refine ⟨coherent.formed, coherent.fifo, ?_, ?_, ?_, ?_⟩
      · exact fun entry listed => (coherent.cached entry listed).fill place named rfl
      · intro other listed
        rcases List.mem_or_eq_of_mem_set listed with kept | rfl
        · exact coherent.faithful other kept
        · exact faithful
      · intro other id' format' schema' slot' holds
        rcases set_cases holds with ⟨_, ⟨⟩⟩ | ⟨_, kept⟩
        obtain ⟨asked', owned⟩ := coherent.holding other id' format' schema' slot' kept
        exact ⟨asked', owned.fill place named rfl⟩
      · intro other id' format' schema' result' finished
        rcases set_cases finished with ⟨rfl, ⟨⟩⟩ | ⟨_, kept⟩
        · refine ⟨result, fun error failed => ?_⟩
          rw [retried error failed]
          exact List.mem_append_right _ List.mem_cons_self
        · obtain ⟨same, tried⟩ := coherent.done other id' format' schema' result' kept
          refine ⟨same, fun error failed => ?_⟩
          dsimp only
          split
          · exact List.mem_append_left _ (tried error failed)
          · exact tried error failed
    · cases taken

/-- A call that holds its slot can go on, and returns what its schema compiles to. -/
theorem Coherent.getOrPrepare (coherent : state.Coherent formats schemaOf) {call : Nat} {id : Int32}
    {format : SchemaFormat} {schema : String} {slot : Nat}
    (held : state.calls call = .holding id format schema slot) :
    ∃ next, state.step formats (.getOrPrepare call) = some next ∧
      next.calls call = .done id format schema (PreparedSchema.new formats format schema) := by
  obtain ⟨asked, found, place, rfl⟩ := coherent.holding call id format schema slot held
  obtain ⟨result, _⟩ := PreparedSlot.getOrPrepare_eq
    (coherent.faithful found (List.mem_of_getElem? place)) asked
  simp only [CodecState.step, held, place]
  refine ⟨_, rfl, ?_⟩
  rw [← result]
  exact set_self _ _ _

end CodecState

/-- However the calls interleave, each of them returns what its schema compiles to, and an error is
from its own attempt; the map and the queue of the cache have the same ids, none twice and at most
1024; and the ids leave the cache in the order in which they came. -/
theorem prepared_is_transparent_and_bounded (schemaOf : Int32 → SchemaFormat × String)
    (actions : List CodecAction) (final : CodecState Message)
    (asks : ∀ action ∈ actions, action.Asks schemaOf)
    (run : exec (CodecState.step formats) .initial actions = some final) :
    (∀ call id format schema result, final.calls call = .done id format schema result →
      result = PreparedSchema.new formats format schema ∧
        ∀ error, result = .error error → call ∈ final.compiled) ∧
    (∀ call id format schema slot, final.calls call = .holding id format schema slot →
      ∃ next, final.step formats (.getOrPrepare call) = some next ∧
        next.calls call = .done id format schema (PreparedSchema.new formats format schema)) ∧
    (∀ id, (final.cache.find id).isSome ↔ id ∈ final.cache.order) ∧
    final.cache.order.Nodup ∧ final.cache.order.length ≤ 1024 ∧
    final.inserted = final.evicted ++ final.cache.order := by
  have coherent : final.Coherent formats schemaOf := by
    exact exec_preserves _ (fun _ _ _ coherent asks taken => coherent.step asks taken)
      CodecState.coherent_initial (along_of_forall_mem asks _) run
  exact ⟨coherent.done, fun _ _ _ _ _ held => coherent.getOrPrepare held,
    fun _ => coherent.formed.find_isSome, coherent.formed.nodup, coherent.formed.bounded,
    coherent.fifo⟩

/-- The points under every id but 1, under which there is a schema that does not compile. -/
def pointsOrBroken (id : Int32) : SchemaFormat × String :=
  if id = 1 then (.avro, "broken") else (.protobuf, "points")

/-- Two calls about the broken schema, and one about points in between. -/
def brokenTwice : List CodecAction :=
  [.slot 0 1 .avro "broken", .slot 1 7 .protobuf "points", .getOrPrepare 1, .getOrPrepare 0,
    .slot 2 1 .avro "broken", .getOrPrepare 2]

theorem broken_schema_is_compiled_again :
    ∃ final,
      exec (CodecState.step SchemaRegistryCodec.pointFormats) .initial brokenTwice = some final ∧
      final.compiled = [1, 0, 2] ∧ final.cache.order = [1, 7] ∧
      ∀ call id format schema result, final.calls call = .done id format schema result →
        result = PreparedSchema.new SchemaRegistryCodec.pointFormats format schema := by
  refine ⟨_, rfl, rfl, rfl, fun call id format schema result finished => ?_⟩
  have asks : ∀ action ∈ brokenTwice, action.Asks pointsOrBroken := by
    simp [brokenTwice, CodecAction.Asks, pointsOrBroken]
  exact ((prepared_is_transparent_and_bounded SchemaRegistryCodec.pointFormats pointsOrBroken
    brokenTwice _ asks rfl).1 call id format schema result finished).1

end KrabkaGateway.Schema
