import Mathlib.Algebra.Group.Int.Defs
import Mathlib.Order.Bounds.Basic
import KrabkaGateway.Lib.Run
import KrabkaGateway.Consume.AckState

/-!
# Histories of one partition's frontier

Any sequence of deliveries and acknowledgements of one partition. `accepted` and `acked`
are history: the deliveries that were taken and the acknowledgements that were sent.
When deliveries come in ascending order and only delivered offsets are acknowledged, the
frontier is a function of the two sets.
-/

namespace KrabkaGateway.Consume

open Lib

/-- A call on a `PartitionAckState`. -/
inductive AckCall where
  | delivery (offset : Int)
  | ack (offset : Int)
  deriving DecidableEq, Repr

def AckCall.offset : AckCall → Int
  | .delivery offset => offset
  | .ack offset => offset

/-- An offset of the broker: `0..=i64::MAX`. -/
def OffsetInRange (offset : Int) : Prop :=
  0 ≤ offset ∧ offset ≤ i64Max

namespace PartitionAckState

def call (state : PartitionAckState) : AckCall → Except Unit Unit × PartitionAckState
  | .delivery offset => state.recordDelivery offset
  | .ack offset => state.recordAck offset

/-- The only subtraction: a call that seeds the frontier computes `offset - 1` in `i64`. -/
def Overflows (state : PartitionAckState) (offset : Int) : Prop :=
  state.frontier = none ∧ ¬ (-2 ^ 63 ≤ offset - 1 ∧ offset - 1 ≤ i64Max)

variable {state : PartitionAckState}

theorem wellFormed_call (wellFormed : state.WellFormed) (call : AckCall) :
    (state.call call).2.WellFormed := by
  cases call with
  | delivery offset => exact wellFormed_recordDelivery wellFormed offset
  | ack offset => exact wellFormed_recordAck wellFormed offset

variable {offset : Int}

theorem not_overflows (range : OffsetInRange offset) : ¬ state.Overflows offset := by
  obtain ⟨lower, upper⟩ := range
  rintro ⟨_, outside⟩
  apply outside
  unfold i64Max at *
  omega

theorem call_error (wellFormed : state.WellFormed) (call : AckCall)
    (failed : (state.call call).1 = .error ()) : (state.call call).2 = state := by
  cases call with
  | delivery offset =>
    rcases state.recordDelivery_cases offset with
      ⟨_, result⟩ | ⟨_, result⟩ | ⟨_, result⟩ | ⟨_, _, _, result⟩ <;>
      simp_all [PartitionAckState.call]
  | ack offset =>
    rcases recordAck_cases wellFormed offset with
      ⟨_, result⟩ | ⟨_, result⟩ | ⟨_, _, result⟩ | ⟨_, _, _, _, result⟩ <;>
      simp_all [PartitionAckState.call]

/-- A frontier moves up or stays. -/
theorem le_frontier_call (wellFormed : state.WellFormed) {frontier : Int}
    (tracked : state.frontier = some frontier) (call : AckCall) :
    ∃ next, (state.call call).2.frontier = some next ∧ frontier ≤ next := by
  have reached : state.reached frontier = true := reached_iff.mpr ⟨frontier, tracked, le_refl _⟩
  apply reached_iff.mp
  cases call with
  | delivery offset =>
    have registers := state.registers_recordDelivery offset
    rcases registers.frontier with unchanged | ⟨unseeded, _⟩
    · rwa [PartitionAckState.call, PartitionAckState.reached, unchanged]
    · rw [tracked] at unseeded
      cases unseeded
  | ack offset => exact (acknowledges_recordAck wellFormed offset).reached frontier reached

/-! ## The bound on waiting deliveries -/

theorem length_recordDelivery (offset : Int)
    (bounded : state.delivered.length ≤ maxOutstandingPerPartition) :
    (state.recordDelivery offset).2.delivered.length ≤ maxOutstandingPerPartition := by
  by_cases full : offset ∉ state.delivered ∧ maxOutstandingPerPartition ≤ state.delivered.length
  · have unchanged : (state.recordDelivery offset).2 = state := by
      unfold recordDelivery
      rw [if_pos full]
      split <;> rfl
    rwa [unchanged]
  · have inserted : (state.delivered.insert offset).length ≤ maxOutstandingPerPartition := by
      by_cases known : offset ∈ state.delivered
      · exact (OrdSet.length_insert_of_mem known).trans bounded
      · have room : ¬ maxOutstandingPerPartition ≤ state.delivered.length :=
          fun reached => full ⟨known, reached⟩
        have grown := OrdSet.length_insert_le state.delivered offset
        omega
    rcases state.recordDelivery_cases offset with
      ⟨_, result⟩ | ⟨_, result⟩ | ⟨_, result⟩ | ⟨_, _, _, result⟩ <;> rw [result] <;> assumption

theorem length_call (wellFormed : state.WellFormed) (call : AckCall)
    (bounded : state.delivered.length ≤ maxOutstandingPerPartition) :
    (state.call call).2.delivered.length ≤ maxOutstandingPerPartition := by
  cases call with
  | delivery offset => exact length_recordDelivery offset bounded
  | ack offset =>
    exact (OrdSet.length_le_of_subset (acknowledges_recordAck wellFormed offset).kept).trans bounded

/-! ## What stays pending -/

/-- The loop adds no deliveries. -/
theorem delivered_of_drainFrom (list : List Int) (state : PartitionAckState)
    (listed : state.delivered.elems = list) (stays : offset ∈ (drainFrom list state).delivered) :
    offset ∈ state.delivered := by
  induction list generalizing state with
  | nil => exact stays
  | cons next rest ih =>
    have isFirst : state.delivered.first = some next := by simp [OrdSet.first, listed]
    unfold drainFrom at stays
    split at stays
    · have later := ih _ (by simp [OrdSet.popFirst, listed]) stays
      exact ((OrdSet.mem_popFirst isFirst).mp later).1
    · exact stays

theorem pending_drainFrom (list : List Int) (state : PartitionAckState)
    (listed : state.delivered.elems = list) (waiting : offset ∈ state.pending)
    (stays : offset ∈ (drainFrom list state).delivered) :
    offset ∈ (drainFrom list state).pending := by
  induction list generalizing state with
  | nil => exact waiting
  | cons next rest ih =>
    have isFirst : state.delivered.first = some next := by simp [OrdSet.first, listed]
    unfold drainFrom at stays ⊢
    split at stays
    · rename_i acknowledged
      rw [if_pos acknowledged]
      have left : (state.delivered.popFirst).elems = rest := by simp [OrdSet.popFirst, listed]
      by_cases same : offset = next
      · have again := delivered_of_drainFrom rest _ left stays
        exact absurd same ((OrdSet.mem_popFirst isFirst).mp again).2
      · exact ih _ left (OrdSet.mem_erase.mpr ⟨waiting, same⟩) stays
    · rename_i waits
      rw [if_neg waits]
      exact waiting

end PartitionAckState

/-! ## Histories -/

/-- A state with the deliveries that were accepted, the first of them last, and the
acknowledgements that were sent. -/
structure AckHistory where
  state : PartitionAckState := {}
  accepted : List Int := []
  acked : List Int := []

namespace AckHistory

def step (history : AckHistory) (call : AckCall) : Option AckHistory :=
  let (result, state) := history.state.call call
  match call, result with
  | .delivery offset, .ok () => some { history with state, accepted := offset :: history.accepted }
  | .delivery _, .error () => some { history with state }
  | .ack offset, _ => some { history with state, acked := offset :: history.acked }

/-- Deliveries ascend, and only what was delivered is acknowledged. -/
def Orderly (history : AckHistory) : AckCall → Prop
  | .delivery offset => ∀ earlier ∈ history.accepted, earlier ≤ offset
  | .ack offset => offset ∈ history.accepted

instance (history : AckHistory) : (call : AckCall) → Decidable (history.Orderly call)
  | .delivery offset => inferInstanceAs (Decidable (∀ earlier ∈ history.accepted, earlier ≤ offset))
  | .ack offset => inferInstanceAs (Decidable (offset ∈ history.accepted))

variable {history : AckHistory} {call : AckCall}

theorem state_step {next : AckHistory} (taken : history.step call = some next) :
    next.state = (history.state.call call).2 := by
  unfold step at taken
  dsimp only at taken
  split at taken <;> cases taken <;> rfl

structure Valid (history : AckHistory) : Prop where
  wellFormed : history.state.WellFormed
  bounded : history.state.delivered.length ≤ maxOutstandingPerPartition

theorem valid_start : Valid {} :=
  ⟨PartitionAckState.wellFormed_default, by simp [OrdSet.length]⟩

theorem Valid.step {next : AckHistory} (valid : history.Valid)
    (taken : history.step call = some next) : next.Valid := by
  constructor
  · rw [state_step taken]
    exact PartitionAckState.wellFormed_call valid.wellFormed call
  · rw [state_step taken]
    exact PartitionAckState.length_call valid.wellFormed call valid.bounded

/-- Everything up to `offset` that was accepted is acknowledged. -/
def Settled (history : AckHistory) (offset : Int) : Prop :=
  offset ∈ history.accepted ∧
    ∀ earlier ∈ history.accepted, earlier ≤ offset → earlier ∈ history.acked

def first (history : AckHistory) : Option Int := history.accepted.getLast?

/-- What an orderly history keeps. An accepted delivery waits or the frontier has passed it, in
which case it is acknowledged; the pending ones are the acknowledged ones that wait. -/
structure Faithful (history : AckHistory) : Prop where
  waits : ∀ offset ∈ history.accepted,
    offset ∈ history.state.delivered ∨ history.state.reached offset = true
  accepted : ∀ offset ∈ history.state.delivered, offset ∈ history.accepted
  pending : ∀ offset ∈ history.state.delivered,
    offset ∈ history.state.pending ↔ offset ∈ history.acked
  passed : ∀ offset ∈ history.accepted, history.state.reached offset = true →
    offset ∈ history.acked
  acked : ∀ offset ∈ history.acked, offset ∈ history.accepted
  seeded : history.accepted = [] → history.state = {}
  frontier : ∀ least, history.first = some least →
    (∀ offset ∈ history.accepted, least ≤ offset) ∧
      ∃ frontier, history.state.frontier = some frontier ∧
        (frontier ∈ history.accepted ∨ frontier = least - 1)

theorem faithful_start : Faithful {} where
  waits := by simp
  accepted := by simp
  pending := by simp
  passed := by simp
  acked := by simp
  seeded := fun _ => rfl
  frontier := by simp [first]

theorem first_cons {least : Int} (known : history.first = some least) (state : PartitionAckState)
    (offset : Int) :
    first { history with state, accepted := offset :: history.accepted } = some least := by
  unfold first at *
  cases listed : history.accepted with
  | nil => simp [listed] at known
  | cons head tail =>
    rw [listed] at known
    rw [List.getLast?_cons_cons]
    exact known

variable {offset : Int}

theorem first_isSome (filled : history.accepted ≠ []) : ∃ least, history.first = some least :=
  ⟨_, List.getLast?_eq_some_getLast filled⟩

theorem Faithful.accepted_ne_nil (faithful : history.Faithful) {frontier : Int}
    (tracked : history.state.frontier = some frontier) : history.accepted ≠ [] := by
  intro none
  rw [faithful.seeded none] at tracked
  cases tracked

theorem Faithful.accepted_eq_nil (faithful : history.Faithful)
    (unseeded : history.state.frontier = none) : history.accepted = [] := by
  by_contra filled
  obtain ⟨least, isFirst⟩ := first_isSome filled
  obtain ⟨_, _, same, _⟩ := faithful.frontier least isFirst
  cases unseeded.symm.trans same

section Delivery

variable (faithful : history.Faithful) (ascending : ∀ earlier ∈ history.accepted, earlier ≤ offset)

include faithful ascending

/-- The frontier is at this very offset: it was delivered before. -/
theorem Faithful.again (reached : history.state.reached offset = true) :
    Faithful { history with accepted := offset :: history.accepted } := by
  obtain ⟨frontier, tracked, below⟩ := PartitionAckState.reached_iff.mp reached
  obtain ⟨least, isFirst⟩ := first_isSome (faithful.accepted_ne_nil tracked)
  obtain ⟨lower, found, same, cases⟩ := faithful.frontier least isFirst
  have known : offset ∈ history.accepted := by
    obtain rfl := Option.some.inj (tracked.symm.trans same)
    rcases cases with member | rfl
    · exact le_antisymm below (ascending frontier member) ▸ member
    · have above := ascending least (List.mem_of_getLast? isFirst)
      omega
  have covers : ∀ other, other ∈ offset :: history.accepted ↔ other ∈ history.accepted := by
    intro other
    rw [List.mem_cons]
    exact ⟨fun either => either.elim (fun same => same ▸ known) id, Or.inr⟩
  refine ⟨?_, ?_, faithful.pending, ?_, ?_, by simp, ?_⟩
  · exact fun other member => faithful.waits other ((covers other).mp member)
  · exact fun other member => (covers other).mpr (faithful.accepted other member)
  · exact fun other member => faithful.passed other ((covers other).mp member)
  · exact fun other member => (covers other).mpr (faithful.acked other member)
  · intro old isOld
    obtain rfl : least = old := Option.some.inj ((first_cons isFirst _ _).symm.trans isOld)
    exact ⟨fun other member => lower other ((covers other).mp member), found, same,
      cases.imp_left (covers found).mpr⟩

/-- A delivery above the frontier waits. -/
theorem Faithful.inserted (valid : history.Valid) {frontier : Int}
    (tracked : history.state.frontier = some frontier) (above : frontier < offset) :
    Faithful { history with
      state := { history.state with delivered := history.state.delivered.insert offset }
      accepted := offset :: history.accepted } := by
  obtain ⟨least, isFirst⟩ := first_isSome (faithful.accepted_ne_nil tracked)
  have ahead : ¬ history.state.reached offset = true := fun reached =>
    absurd (PartitionAckState.le_of_reached reached tracked) (not_le.mpr above)
  refine ⟨?_, ?_, ?_, ?_,
    fun other member => List.mem_cons_of_mem _ (faithful.acked other member), by simp, ?_⟩
  · intro other member
    rcases List.mem_cons.mp member with rfl | member
    · exact Or.inl (OrdSet.mem_insert.mpr (Or.inl rfl))
    · exact (faithful.waits other member).imp_left fun waits =>
        OrdSet.mem_insert.mpr (Or.inr waits)
  · intro other member
    rcases OrdSet.mem_insert.mp member with rfl | member
    · exact List.mem_cons_self
    · exact List.mem_cons_of_mem _ (faithful.accepted other member)
  · intro other member
    by_cases waits : other ∈ history.state.delivered
    · exact faithful.pending other waits
    · -- A new delivery is neither pending nor acknowledged.
      obtain rfl : other = offset := (OrdSet.mem_insert.mp member).resolve_right waits
      refine ⟨fun pending => absurd (valid.wellFormed.pendingDelivered other pending) waits,
        fun acked => ?_⟩
      rcases faithful.waits other (faithful.acked other acked) with again | reached
      · exact absurd again waits
      · exact absurd reached ahead
  · intro other member reached
    rcases List.mem_cons.mp member with rfl | member
    · exact absurd reached ahead
    · exact faithful.passed other member reached
  · intro again isAgain
    obtain rfl : least = again := Option.some.inj ((first_cons isFirst _ _).symm.trans isAgain)
    obtain ⟨lower, found, same, cases⟩ := faithful.frontier least isFirst
    refine ⟨List.forall_mem_cons.mpr ⟨ascending least (List.mem_of_getLast? isFirst), lower⟩,
      found, same, cases.imp_left (List.mem_cons_of_mem _)⟩

end Delivery

/-- The first delivery sets the frontier below it. -/
theorem Faithful.seed (faithful : history.Faithful) (unseeded : history.state.frontier = none) :
    Faithful { history with
      state := { history.state with
        frontier := some (offset - 1)
        delivered := history.state.delivered.insert offset
        lastCommittedFrontier := some (offset - 1) }
      accepted := offset :: history.accepted } := by
  have fresh := faithful.accepted_eq_nil unseeded
  have untouched := faithful.seeded fresh
  have unacked : history.acked = [] := by
    apply List.eq_nil_iff_forall_not_mem.mpr
    intro other member
    simpa [fresh] using faithful.acked other member
  refine ⟨?_, ?_, ?_, ?_, by simp [unacked], by simp, ?_⟩
  · intro other member
    simp only [fresh, List.mem_singleton] at member
    exact Or.inl (OrdSet.mem_insert.mpr (Or.inl member))
  · intro other member
    rw [untouched] at member
    simpa [fresh] using member
  · intro other member
    simp [untouched, unacked]
  · intro other member reached
    have bound := PartitionAckState.le_of_reached reached rfl
    simp only [fresh, List.mem_singleton] at member
    omega
  · intro least isFirst
    simp only [first, fresh, List.getLast?_singleton, Option.some.injEq] at isFirst
    subst isFirst
    exact ⟨by simp [fresh], _, rfl, Or.inr rfl⟩

/-- A delivery of an orderly history, and what it does. -/
theorem Faithful.delivery (faithful : history.Faithful) (valid : history.Valid)
    (ascending : ∀ earlier ∈ history.accepted, earlier ≤ offset)
    (taken : (history.state.recordDelivery offset).1 = .ok ()) :
    Faithful { history with
      state := (history.state.recordDelivery offset).2
      accepted := offset :: history.accepted } := by
  rcases history.state.recordDelivery_cases offset with
    ⟨reached, result⟩ | ⟨_, result⟩ | ⟨unseeded, result⟩ | ⟨frontier, tracked, above, result⟩
  · rw [result]
    exact faithful.again ascending reached
  · simp [result] at taken
  · rw [result]
    exact faithful.seed unseeded
  · rw [result]
    exact faithful.inserted ascending valid tracked above

/-- An acknowledgement of an orderly history. -/
theorem Faithful.ack (faithful : history.Faithful) (valid : history.Valid)
    (known : offset ∈ history.accepted) :
    Faithful { history with
      state := (history.state.recordAck offset).2
      acked := offset :: history.acked } := by
  have ackedKnown : ∀ other ∈ offset :: history.acked, other ∈ history.accepted := by
    intro other member
    rcases List.mem_cons.mp member with rfl | member
    · exact known
    · exact faithful.acked other member
  have some : history.accepted ≠ [] := List.ne_nil_of_mem known
  rcases PartitionAckState.recordAck_cases valid.wellFormed offset with
    ⟨unseeded, _⟩ | ⟨reached, result⟩ | ⟨_, absent, result⟩ |
      ⟨frontier, tracked, above, delivered, result⟩
  · exact absurd (faithful.accepted_eq_nil unseeded) some
  · rw [result]
    refine ⟨faithful.waits, faithful.accepted, ?_, ?_, ackedKnown, fun none => absurd none some,
      faithful.frontier⟩
    · intro other waits
      rw [faithful.pending other waits, List.mem_cons]
      refine ⟨Or.inr, fun either => either.resolve_left ?_⟩
      rintro rfl
      -- What the frontier has reached does not wait.
      obtain ⟨found, same, bound⟩ := PartitionAckState.reached_iff.mp reached
      exact absurd bound (not_le.mpr (valid.wellFormed.above found same other waits))
    · exact fun other member reached =>
        List.mem_cons_of_mem _ (faithful.passed other member reached)
  · -- A delivered offset waits or was passed, so the call does not fail.
    rcases faithful.waits offset known with waits | reached
    · exact absurd waits absent
    · rw [result]
      obtain ⟨found, same, _⟩ := PartitionAckState.reached_iff.mp reached
      have passes : history.state.recordAck offset = (.ok (), history.state) := by
        unfold PartitionAckState.recordAck
        simp [same, reached]
      rw [passes] at result
      cases result
  · rw [result]
    have drained := PartitionAckState.drained_recordAck valid.wellFormed delivered
    have moves : ∀ other, history.state.reached other = true →
        (PartitionAckState.drain
          { history.state with pending := history.state.pending.insert offset }).reached other =
            true := by
      have acknowledges := PartitionAckState.acknowledges_recordAck valid.wellFormed offset
      rw [result] at acknowledges
      exact acknowledges.reached
    refine ⟨?_, fun other member => faithful.accepted other (drained.kept other member), ?_, ?_,
      ackedKnown, fun none => absurd none some, ?_⟩
    · intro other member
      rcases faithful.waits other member with waits | reached
      · by_cases stays : other ∈ (PartitionAckState.drain
          { history.state with pending := history.state.pending.insert offset }).delivered
        · exact Or.inl stays
        · exact Or.inr (PartitionAckState.reached_iff.mpr (drained.removed other waits stays).2)
      · exact Or.inr (moves other reached)
    · intro other stays
      have waits := drained.kept other stays
      rw [List.mem_cons, ← faithful.pending other waits]
      refine ⟨fun pending => OrdSet.mem_insert.mp (drained.pendingKept other pending).1,
        fun either => ?_⟩
      exact PartitionAckState.pending_drainFrom _ _ rfl (OrdSet.mem_insert.mpr either) stays
    · intro other member passed
      rcases faithful.waits other member with waits | reached
      · by_cases stays : other ∈ (PartitionAckState.drain
          { history.state with pending := history.state.pending.insert offset }).delivered
        · obtain ⟨found, same, bound⟩ := PartitionAckState.reached_iff.mp passed
          exact absurd bound (not_le.mpr (drained.above found same other stays))
        · have pending := OrdSet.mem_insert.mp (drained.removed other waits stays).1
          rw [faithful.pending other waits] at pending
          exact List.mem_cons.mpr pending
      · exact List.mem_cons_of_mem _ (faithful.passed other member reached)
    · intro least isFirst
      obtain ⟨lower, found, same, cases⟩ := faithful.frontier least isFirst
      refine ⟨lower, ?_⟩
      rcases drained.moved with unchanged | ⟨_, moved, _, _, isFrontier, wasDelivered, _⟩
      · refine ⟨found, ?_, cases⟩
        rw [unchanged]
        exact same
      · exact ⟨moved, isFrontier, Or.inl (faithful.accepted moved wasDelivered)⟩

theorem Faithful.step {next : AckHistory} (faithful : history.Faithful) (valid : history.Valid)
    (orderly : history.Orderly call) (taken : history.step call = some next) : next.Faithful := by
  cases call with
  | ack offset =>
    have shape : next = { history with
        state := (history.state.recordAck offset).2
        acked := offset :: history.acked } := (Option.some.inj taken).symm
    rw [shape]
    exact faithful.ack valid orderly
  | delivery offset =>
    unfold AckHistory.step at taken
    simp only [PartitionAckState.call] at taken
    cases result : (history.state.recordDelivery offset).1 with
    | error error =>
      rw [result] at taken
      cases taken
      have unchanged := PartitionAckState.call_error valid.wellFormed (.delivery offset) result
      rw [PartitionAckState.call] at unchanged
      rw [unchanged]
      exact faithful
    | ok accepted =>
      rw [result] at taken
      cases taken
      exact faithful.delivery valid orderly result

/-- The frontier is the last settled delivery, or lies right before the first delivery. -/
theorem Faithful.closedForm (faithful : history.Faithful) (valid : history.Valid) :
    match history.first with
    | none => history.state.frontier = none
    | some least => ∃ frontier, history.state.frontier = some frontier ∧
        (IsGreatest {offset | history.Settled offset} frontier ∨
          (∀ offset, ¬ history.Settled offset) ∧ frontier = least - 1) := by
  split
  · rename_i none
    have empty : history.accepted = [] := List.getLast?_eq_none_iff.mp none
    rw [faithful.seeded empty]
  · rename_i least isFirst
    obtain ⟨lower, frontier, tracked, cases⟩ := faithful.frontier least isFirst
    -- Nothing above the frontier is settled: the first waiting delivery is not acknowledged.
    have upper : ∀ offset, history.Settled offset → offset ≤ frontier := by
      rintro offset ⟨known, acked⟩
      by_contra above
      rcases faithful.waits offset known with waits | reached
      · cases head : history.state.delivered.first with
        | none => simp_all [OrdSet.first, OrdSet.mem_def]
        | some smallest =>
          have waitsToo := OrdSet.first_mem head
          have settled := acked smallest (faithful.accepted smallest waitsToo)
            (OrdSet.first_le head waits)
          exact valid.wellFormed.firstWaits smallest head
            ((faithful.pending smallest waitsToo).mpr settled)
      · obtain ⟨found, same, bound⟩ := PartitionAckState.reached_iff.mp reached
        rw [tracked] at same
        cases same
        omega
    refine ⟨frontier, tracked, ?_⟩
    rcases cases with member | rfl
    · left
      refine ⟨⟨member, fun earlier isEarlier below => ?_⟩,
        fun offset settled => upper offset settled⟩
      exact faithful.passed earlier isEarlier
        (PartitionAckState.reached_iff.mpr ⟨frontier, tracked, below⟩)
    · right
      refine ⟨fun offset settled => ?_, rfl⟩
      have above := lower offset settled.1
      have below := upper offset settled
      omega

variable {calls : List AckCall}

theorem valid_of_run (run : Run.exec step {} calls = some history) : history.Valid :=
  Run.exec_preserves_always Valid (fun _ _ _ valid taken => valid.step taken) valid_start run

theorem faithful_of_run (run : Run.exec step {} calls = some history)
    (orderly : Run.Along step Orderly {} calls) : history.Faithful := by
  have both := Run.exec_preserves (fun history => history.Valid ∧ history.Faithful)
    (fun _ _ _ inv allowed taken => ⟨inv.1.step taken, inv.2.step inv.1 allowed taken⟩)
    ⟨valid_start, faithful_start⟩ orderly run
  exact both.2

/-- The closed form depends on the accepted deliveries and on which of them are acknowledged. -/
theorem Faithful.frontier_eq {other : AckHistory} (faithful : history.Faithful)
    (valid : history.Valid) (otherFaithful : other.Faithful) (otherValid : other.Valid)
    (accepted : other.accepted = history.accepted)
    (acked : ∀ offset, offset ∈ other.acked ↔ offset ∈ history.acked) :
    other.state.frontier = history.state.frontier := by
  have settled : ∀ offset, other.Settled offset ↔ history.Settled offset := by
    intro offset
    simp only [Settled, accepted, acked]
  have same : other.first = history.first := congrArg List.getLast? accepted
  have closed := faithful.closedForm valid
  have otherClosed := otherFaithful.closedForm otherValid
  rw [same] at otherClosed
  cases isFirst : history.first with
  | none =>
    rw [isFirst] at closed otherClosed
    exact otherClosed.trans closed.symm
  | some least =>
    rw [isFirst] at closed otherClosed
    simp only [settled] at otherClosed
    obtain ⟨frontier, tracked, greatest | ⟨never, rfl⟩⟩ := closed
    · obtain ⟨found, otherTracked, otherGreatest | ⟨never, _⟩⟩ := otherClosed
      · rw [tracked, otherTracked, otherGreatest.unique greatest]
      · exact absurd greatest.1 (never frontier)
    · obtain ⟨found, otherTracked, otherGreatest | ⟨_, rfl⟩⟩ := otherClosed
      · exact absurd otherGreatest.1 (never found)
      · rw [tracked, otherTracked]

/-- The specification of the frontier, for every sequence of calls and every next call. -/
theorem frontier_specified {calls : List AckCall} {history : AckHistory}
    (run : Run.exec step {} calls = some history) :
    (∀ offset ∈ history.state.pending, offset ∈ history.state.delivered) ∧
      (∀ frontier, history.state.frontier = some frontier →
        ∀ offset ∈ history.state.delivered, frontier < offset) ∧
      (∀ offset, history.state.delivered.first = some offset → offset ∉ history.state.pending) ∧
      history.state.delivered.length ≤ maxOutstandingPerPartition ∧
      (∀ call : AckCall, OffsetInRange call.offset →
        ¬ history.state.Overflows call.offset ∧
          ((history.state.call call).1 = .error () → (history.state.call call).2 = history.state) ∧
          ∀ frontier, history.state.frontier = some frontier →
            ∃ next, (history.state.call call).2.frontier = some next ∧ frontier ≤ next) ∧
      (Run.Along step Orderly {} calls →
        (match history.first with
          | none => history.state.frontier = none
          | some least => ∃ frontier, history.state.frontier = some frontier ∧
              (IsGreatest {offset | history.Settled offset} frontier ∨
                (∀ offset, ¬ history.Settled offset) ∧ frontier = least - 1)) ∧
          ∀ otherCalls other, Run.exec step {} otherCalls = some other →
            Run.Along step Orderly {} otherCalls → other.accepted = history.accepted →
            (∀ offset, offset ∈ other.acked ↔ offset ∈ history.acked) →
            other.state.frontier = history.state.frontier) := by
  have valid := valid_of_run run
  refine ⟨valid.wellFormed.pendingDelivered, valid.wellFormed.above, valid.wellFormed.firstWaits,
    valid.bounded, ?_, ?_⟩
  · intro call range
    exact ⟨PartitionAckState.not_overflows range,
      PartitionAckState.call_error valid.wellFormed call,
      fun frontier tracked => PartitionAckState.le_frontier_call valid.wellFormed tracked call⟩
  · intro orderly
    have faithful := faithful_of_run run orderly
    refine ⟨faithful.closedForm valid, ?_⟩
    intro otherCalls other otherRun otherOrderly accepted acked
    exact faithful.frontier_eq valid (faithful_of_run otherRun otherOrderly)
      (valid_of_run otherRun) accepted acked

/-- Offsets 3, 5 and 9, of which 5 and then 3 are acknowledged. -/
def gappedCalls : List AckCall :=
  [.delivery 3, .delivery 5, .delivery 9, .ack 5, .ack 3]

theorem frontier_specified_after_gap :
    ∃ history, Run.exec step {} gappedCalls = some history ∧
      history.state.frontier = some 5 ∧ history.first = some 3 ∧
      ∃ frontier, history.state.frontier = some frontier ∧
        (IsGreatest {offset | history.Settled offset} frontier ∨
          (∀ offset, ¬ history.Settled offset) ∧ frontier = 3 - 1) := by
  have run : Run.exec step {} gappedCalls = some
      { state := ⟨some 5, ⟨[9], by decide⟩, ⟨[], by decide⟩, some 2⟩
        accepted := [9, 5, 3]
        acked := [3, 5] } := rfl
  have orderly : Run.Along step Orderly {} gappedCalls := by decide
  exact ⟨_, run, rfl, rfl, ((frontier_specified run).2.2.2.2.2 orderly).1⟩

end AckHistory

end KrabkaGateway.Consume
