import Mathlib.Data.Int.Order.Basic
import Mathlib.Tactic.Common
import KrabkaGateway.Lib.OrdSet

/-!
# The acknowledgement frontier of one partition

`PartitionAckState` of `consume.rs`. Deliveries wait in an ordered set until
the record and every earlier delivery of the partition is acknowledged; the
frontier is the last offset for which that is so. Kafka offsets may have gaps,
so the frontier moves along deliveries and not along integers.
-/

namespace KrabkaGateway.Consume

open Lib

/-- `MAX_OUTSTANDING_PER_PARTITION`. -/
def maxOutstandingPerPartition : Nat := 100000

/-- `i64::MAX`, where `checked_add` gives up. -/
def i64Max : Int := 9223372036854775807

structure PartitionAckState where
  frontier : Option Int := none
  delivered : OrdSet Int := ∅
  pending : OrdSet Int := ∅
  lastCommittedFrontier : Option Int := none
  deriving DecidableEq

namespace PartitionAckState

/-- The frontier has already reached `offset`. -/
def reached (state : PartitionAckState) (offset : Int) : Bool :=
  state.frontier.any fun frontier => offset ≤ frontier

/-- Establish the first delivered offset as the lower bound and remember the
delivery. The second component is the state left behind, also on an error. -/
def recordDelivery (state : PartitionAckState) (offset : Int) :
    Except Unit Unit × PartitionAckState :=
  if state.reached offset then (.ok (), state)
  else if offset ∉ state.delivered ∧ maxOutstandingPerPartition ≤ state.delivered.length then
    (.error (), state)
  else
    let seeded : PartitionAckState :=
      if state.frontier.isNone then
        { state with
          frontier := some (offset - 1)
          lastCommittedFrontier := some (offset - 1) }
      else state
    (.ok (), { seeded with delivered := seeded.delivered.insert offset })

/-- The loop of `drain`, which walks the delivered offsets from the first one.
The list is what is left of `delivered`. -/
def drainFrom : List Int → PartitionAckState → PartitionAckState
  | [], state => state
  | next :: rest, state =>
    if next ∈ state.pending then
      drainFrom rest
        { state with
          pending := state.pending.erase next
          delivered := state.delivered.popFirst
          frontier := some next }
    else state

/-- Move the frontier over the leading acknowledged deliveries. -/
def drain (state : PartitionAckState) : PartitionAckState :=
  drainFrom state.delivered.elems state

def recordAck (state : PartitionAckState) (offset : Int) :
    Except Unit Unit × PartitionAckState :=
  -- An acknowledgement of an untracked partition seeds the frontier itself.
  let (seeding, state) :=
    if state.frontier.isNone then state.recordDelivery offset else (.ok (), state)
  match seeding with
  | .error () => (.error (), state)
  | .ok () =>
    if state.reached offset then (.ok (), state)
    else if offset ∉ state.delivered then (.error (), state)
    else (.ok (), drain { state with pending := state.pending.insert offset })

/-- The offset to commit: one past the frontier, unless that was committed
before or does not fit an `i64`. -/
def commitValue (state : PartitionAckState) : Option Int :=
  (state.frontier.filter fun frontier => state.lastCommittedFrontier ≠ some frontier).bind
    fun frontier => if frontier < i64Max then some (frontier + 1) else none

/-- Remember that `next` was committed. -/
def recordCommit (state : PartitionAckState) (next : Int) : PartitionAckState :=
  { state with lastCommittedFrontier := some (next - 1) }

/-- What every reachable state keeps: nothing at or below the frontier waits,
acknowledgements wait behind a delivery that is not acknowledged, and a state
without a frontier is untouched. -/
structure WellFormed (state : PartitionAckState) : Prop where
  above : ∀ frontier, state.frontier = some frontier →
    ∀ offset ∈ state.delivered, frontier < offset
  pendingDelivered : ∀ offset ∈ state.pending, offset ∈ state.delivered
  firstWaits : ∀ offset, state.delivered.first = some offset → offset ∉ state.pending
  unseeded : state.frontier = none → state = {}

theorem wellFormed_default : WellFormed {} where
  above := by simp
  pendingDelivered := by simp
  firstWaits := by simp [OrdSet.first]
  unseeded := fun _ => rfl

variable {state : PartitionAckState} {offset : Int}

theorem reached_iff :
    state.reached offset = true ↔
      ∃ frontier, state.frontier = some frontier ∧ offset ≤ frontier := by
  cases tracked : state.frontier <;> simp [reached, tracked]

theorem le_of_reached {frontier : Int} (reached : state.reached offset = true)
    (tracked : state.frontier = some frontier) : offset ≤ frontier := by
  obtain ⟨found, same, bound⟩ := reached_iff.mp reached
  cases tracked.symm.trans same
  exact bound

theorem recordDelivery_cases (state : PartitionAckState) (offset : Int) :
    (state.reached offset = true ∧ state.recordDelivery offset = (.ok (), state)) ∨
    (state.reached offset = false ∧ state.recordDelivery offset = (.error (), state)) ∨
    (state.frontier = none ∧ state.recordDelivery offset =
      (.ok (), { state with
        frontier := some (offset - 1)
        lastCommittedFrontier := some (offset - 1)
        delivered := state.delivered.insert offset })) ∨
    (∃ frontier, state.frontier = some frontier ∧ frontier < offset ∧
      state.recordDelivery offset =
        (.ok (), { state with delivered := state.delivered.insert offset })) := by
  unfold recordDelivery
  cases below : state.reached offset with
  | true => simp
  | false =>
    simp only [Bool.false_eq_true, if_false]
    split
    · simp
    · cases tracked : state.frontier with
      | none => simp
      | some frontier =>
        right; right; right
        refine ⟨frontier, rfl, ?_, by simp [tracked]⟩
        by_contra notAbove
        have isReached : state.reached offset = true :=
          reached_iff.mpr ⟨frontier, tracked, not_lt.mp notAbove⟩
        simp [below] at isReached

/-- What `drain` does to a state whose deliveries lie above its frontier. -/
structure Drained (before after : PartitionAckState) : Prop where
  lastCommitted : after.lastCommittedFrontier = before.lastCommittedFrontier
  kept : ∀ offset ∈ after.delivered, offset ∈ before.delivered
  removed : ∀ offset ∈ before.delivered, offset ∉ after.delivered →
    offset ∈ before.pending ∧ ∃ frontier, after.frontier = some frontier ∧ offset ≤ frontier
  above : ∀ frontier, after.frontier = some frontier →
    ∀ offset ∈ after.delivered, frontier < offset
  pendingKept : ∀ offset ∈ after.pending, offset ∈ before.pending ∧ offset ∈ after.delivered
  firstWaits : ∀ offset, after.delivered.first = some offset → offset ∉ after.pending
  moved : after = before ∨
    ∃ least frontier, before.delivered.first = some least ∧ least ∈ before.pending ∧
      after.frontier = some frontier ∧ frontier ∈ before.delivered ∧ least ≤ frontier

theorem drained_of_firstWaits (above : ∀ frontier, state.frontier = some frontier →
      ∀ offset ∈ state.delivered, frontier < offset)
    (pendingDelivered : ∀ offset ∈ state.pending, offset ∈ state.delivered)
    (firstWaits : ∀ offset, state.delivered.first = some offset → offset ∉ state.pending) :
    Drained state state where
  lastCommitted := rfl
  kept := fun _ membership => membership
  removed := fun _ membership absent => absurd membership absent
  above := above
  pendingKept := fun offset membership => ⟨membership, pendingDelivered offset membership⟩
  firstWaits := firstWaits
  moved := Or.inl rfl

theorem drained_drainFrom (list : List Int) (state : PartitionAckState)
    (listed : state.delivered.elems = list)
    (above : ∀ frontier, state.frontier = some frontier →
      ∀ offset ∈ state.delivered, frontier < offset)
    (pendingDelivered : ∀ offset ∈ state.pending, offset ∈ state.delivered) :
    Drained state (drainFrom list state) := by
  induction list generalizing state with
  | nil =>
    refine drained_of_firstWaits above pendingDelivered ?_
    simp [OrdSet.first, listed]
  | cons next rest ih =>
    have isFirst : state.delivered.first = some next := by simp [OrdSet.first, listed]
    unfold drainFrom
    split
    next acknowledged =>
      -- One turn of the loop: `next` leaves both sets and becomes the frontier.
      let turned : PartitionAckState :=
        { state with
          pending := state.pending.erase next
          delivered := state.delivered.popFirst
          frontier := some next }
      have turnedAbove : ∀ frontier, turned.frontier = some frontier →
          ∀ offset ∈ turned.delivered, frontier < offset := by
        intro frontier equality offset membership
        cases equality
        obtain ⟨delivered, different⟩ := (OrdSet.mem_popFirst isFirst).mp membership
        exact lt_of_le_of_ne (OrdSet.first_le isFirst delivered) (Ne.symm different)
      have turnedPending : ∀ offset ∈ turned.pending, offset ∈ turned.delivered := by
        intro offset membership
        obtain ⟨waiting, different⟩ := OrdSet.mem_erase.mp membership
        exact (OrdSet.mem_popFirst isFirst).mpr ⟨pendingDelivered offset waiting, different⟩
      have result := ih turned
        (by simp [turned, OrdSet.popFirst, listed]) turnedAbove turnedPending
      exact {
        lastCommitted := result.lastCommitted
        kept := fun offset membership =>
          ((OrdSet.mem_popFirst isFirst).mp (result.kept offset membership)).1
        removed := by
          intro offset delivered absent
          by_cases same : offset = next
          · refine ⟨same ▸ acknowledged, ?_⟩
            rcases result.moved with unchanged | ⟨_, frontier, _, _, isFrontier, inRest, _⟩
            · exact ⟨next, congrArg PartitionAckState.frontier unchanged, same.le⟩
            · have passed := turnedAbove next rfl frontier inRest
              exact ⟨frontier, isFrontier, same.trans_le passed.le⟩
          · obtain ⟨waiting, passed⟩ := result.removed offset
              ((OrdSet.mem_popFirst isFirst).mpr ⟨delivered, same⟩) absent
            exact ⟨(OrdSet.mem_erase.mp waiting).1, passed⟩
        above := result.above
        pendingKept := fun offset membership =>
          ⟨(OrdSet.mem_erase.mp (result.pendingKept offset membership).1).1,
            (result.pendingKept offset membership).2⟩
        firstWaits := result.firstWaits
        moved := by
          right
          rcases result.moved with unchanged | ⟨least, frontier, _, _, isFrontier, inRest, _⟩
          · refine ⟨next, next, isFirst, acknowledged, ?_, OrdSet.first_mem isFirst, le_refl _⟩
            exact congrArg PartitionAckState.frontier unchanged
          · have delivered := ((OrdSet.mem_popFirst isFirst).mp inRest).1
            exact ⟨next, frontier, isFirst, acknowledged, isFrontier, delivered,
              OrdSet.first_le isFirst delivered⟩ }
    next waits =>
      refine drained_of_firstWaits above pendingDelivered ?_
      intro offset offsetFirst
      rw [isFirst] at offsetFirst
      exact Option.some.inj offsetFirst ▸ waits

theorem drained_drain (state : PartitionAckState)
    (above : ∀ frontier, state.frontier = some frontier →
      ∀ offset ∈ state.delivered, frontier < offset)
    (pendingDelivered : ∀ offset ∈ state.pending, offset ∈ state.delivered) :
    Drained state state.drain :=
  drained_drainFrom _ state rfl above pendingDelivered

theorem wellFormed_recordDelivery (wellFormed : state.WellFormed) (offset : Int) :
    (state.recordDelivery offset).2.WellFormed := by
  rcases state.recordDelivery_cases offset with
    ⟨_, result⟩ | ⟨_, result⟩ | ⟨unseeded, result⟩ | ⟨frontier, tracked, below, result⟩
  · rw [result]
    exact wellFormed
  · rw [result]
    exact wellFormed
  · rw [result]
    have untouched := wellFormed.unseeded unseeded
    subst untouched
    exact {
      above := by
        intro frontier equality other membership
        simp only [Option.some.injEq] at equality
        simp only [OrdSet.mem_insert, OrdSet.not_mem_empty, or_false] at membership
        omega
      pendingDelivered := by simp
      firstWaits := by simp
      unseeded := by simp }
  · rw [result]
    exact {
      above := by
        intro found equality other membership
        rw [tracked] at equality
        cases equality
        rcases OrdSet.mem_insert.mp membership with rfl | delivered
        · exact below
        · exact wellFormed.above frontier tracked other delivered
      pendingDelivered := fun other waiting =>
        OrdSet.mem_insert.mpr (Or.inr (wellFormed.pendingDelivered other waiting))
      firstWaits := by
        intro other isFirst waiting
        -- A pending offset has a delivery below it, so it is not the first one.
        have delivered := wellFormed.pendingDelivered other waiting
        cases oldFirst : state.delivered.first with
        | none => exact absurd delivered (by simp_all [OrdSet.first, OrdSet.mem_def])
        | some least =>
          have least_le := OrdSet.first_le oldFirst delivered
          have other_le := OrdSet.first_le isFirst
            (OrdSet.mem_insert.mpr (Or.inr (OrdSet.first_mem oldFirst)))
          have same : other = least := le_antisymm other_le least_le
          exact wellFormed.firstWaits least oldFirst (same ▸ waiting)
      unseeded := by simp [tracked] }

theorem recordAck_cases (wellFormed : state.WellFormed) (offset : Int) :
    (state.frontier = none ∧ state.recordAck offset =
      (.ok (), { frontier := some offset, lastCommittedFrontier := some (offset - 1) })) ∨
    (state.reached offset = true ∧ state.recordAck offset = (.ok (), state)) ∨
    (state.frontier ≠ none ∧ offset ∉ state.delivered ∧
      state.recordAck offset = (.error (), state)) ∨
    (∃ frontier, state.frontier = some frontier ∧ frontier < offset ∧ offset ∈ state.delivered ∧
      state.recordAck offset =
        (.ok (), drain { state with pending := state.pending.insert offset })) := by
  cases tracked : state.frontier with
  | none =>
    left
    have untouched := wellFormed.unseeded tracked
    subst untouched
    refine ⟨rfl, ?_⟩
    have above : ¬ offset ≤ offset - 1 := by omega
    simp [above, recordAck, recordDelivery, reached, maxOutstandingPerPartition, OrdSet.length,
      drain, OrdSet.insert, OrdSet.insertList, drainFrom, OrdSet.mem_def, OrdSet.popFirst,
      OrdSet.erase]
    rfl
  | some frontier =>
    right
    unfold recordAck
    simp only [tracked, Option.isNone_some, Bool.false_eq_true, if_false]
    cases below : state.reached offset with
    | true => simp
    | false =>
      right
      simp only [Bool.false_eq_true, if_false]
      by_cases delivered : offset ∈ state.delivered
      · right
        refine ⟨frontier, rfl, wellFormed.above frontier tracked offset delivered,
          delivered, by simp [delivered]⟩
      · left
        simp [delivered]

theorem drained_recordAck (wellFormed : state.WellFormed) (delivered : offset ∈ state.delivered) :
    Drained { state with pending := state.pending.insert offset }
      (drain { state with pending := state.pending.insert offset }) := by
  apply drained_drain
  · exact wellFormed.above
  · intro other membership
    rcases OrdSet.mem_insert.mp membership with rfl | waiting
    · exact delivered
    · exact wellFormed.pendingDelivered other waiting

theorem wellFormed_recordAck (wellFormed : state.WellFormed) (offset : Int) :
    (state.recordAck offset).2.WellFormed := by
  rcases recordAck_cases wellFormed offset with
    ⟨_, result⟩ | ⟨_, result⟩ | ⟨_, _, result⟩ | ⟨frontier, tracked, _, delivered, result⟩
  · rw [result]
    exact ⟨by simp, by simp, by simp [OrdSet.first], by simp⟩
  · rw [result]
    exact wellFormed
  · rw [result]
    exact wellFormed
  · rw [result]
    have drained := drained_recordAck wellFormed delivered
    refine ⟨drained.above, fun other waiting => (drained.pendingKept other waiting).2,
      drained.firstWaits, ?_⟩
    intro unseeded
    rcases drained.moved with unchanged | ⟨_, _, _, _, isFrontier, _⟩
    · rw [unchanged] at unseeded
      simp [tracked] at unseeded
    · simp [isFrontier] at unseeded

theorem commitValue_eq_some :
    state.commitValue = some offset ↔
      ∃ frontier, state.frontier = some frontier ∧ state.lastCommittedFrontier ≠ some frontier ∧
        frontier < i64Max ∧ offset = frontier + 1 := by
  cases tracked : state.frontier with
  | none => simp [commitValue, tracked]
  | some frontier =>
    by_cases committed : state.lastCommittedFrontier = some frontier
    · simp [commitValue, tracked, committed, Option.filter_some]
    · by_cases fits : frontier < i64Max
      · simp [commitValue, tracked, committed, fits, Option.filter_some, eq_comm]
      · simp [commitValue, tracked, committed, fits, Option.filter_some]

variable {next : Int}

theorem wellFormed_recordCommit (wellFormed : state.WellFormed)
    (value : state.commitValue = some next) : (state.recordCommit next).WellFormed := by
  obtain ⟨frontier, tracked, _⟩ := commitValue_eq_some.mp value
  exact ⟨wellFormed.above, wellFormed.pendingDelivered, wellFormed.firstWaits,
    fun unseeded => by simp [recordCommit, tracked] at unseeded⟩

theorem commitValue_recordCommit (value : state.commitValue = some next) :
    (state.recordCommit next).commitValue = none := by
  obtain ⟨frontier, tracked, _, _, rfl⟩ := commitValue_eq_some.mp value
  simp [commitValue, recordCommit, tracked, Option.filter_some]

/-- What a delivery leaves as it was, whether or not it was accepted. -/
structure Registers (offset : Int) (before after : PartitionAckState) : Prop where
  pending : after.pending = before.pending
  kept : ∀ other ∈ before.delivered, other ∈ after.delivered
  added : ∀ other ∈ after.delivered, other ∈ before.delivered ∨ other = offset
  frontier : after.frontier = before.frontier ∨
    before.frontier = none ∧ after.frontier = some (offset - 1) ∧ offset ∈ after.delivered
  commitValue : after.commitValue = before.commitValue

theorem registers_recordDelivery (state : PartitionAckState) (offset : Int) :
    Registers offset state (state.recordDelivery offset).2 := by
  have untouched : Registers offset state state :=
    ⟨rfl, fun _ membership => membership, fun _ membership => Or.inl membership, Or.inl rfl, rfl⟩
  rcases state.recordDelivery_cases offset with
    ⟨_, result⟩ | ⟨_, result⟩ | ⟨unseeded, result⟩ | ⟨frontier, tracked, _, result⟩
  · rw [result]
    exact untouched
  · rw [result]
    exact untouched
  · rw [result]
    refine ⟨rfl, fun other membership => OrdSet.mem_insert.mpr (Or.inr membership), ?_,
      Or.inr ⟨unseeded, rfl, OrdSet.mem_insert.mpr (Or.inl rfl)⟩, ?_⟩
    · intro other membership
      exact (OrdSet.mem_insert.mp membership).symm
    · simp [PartitionAckState.commitValue, unseeded]
  · rw [result]
    refine ⟨rfl, fun other membership => OrdSet.mem_insert.mpr (Or.inr membership), ?_,
      Or.inl rfl, rfl⟩
    intro other membership
    exact (OrdSet.mem_insert.mp membership).symm

theorem recordDelivery_ok (accepted : (state.recordDelivery offset).1 = .ok ()) :
    offset ∈ (state.recordDelivery offset).2.delivered ∨ state.reached offset = true := by
  rcases state.recordDelivery_cases offset with
    ⟨reached, _⟩ | ⟨_, result⟩ | ⟨_, result⟩ | ⟨_, _, _, result⟩
  · exact Or.inr reached
  · simp [result] at accepted
  · simp [result, OrdSet.mem_insert]
  · simp [result, OrdSet.mem_insert]

/-- What an acknowledgement does to a well-formed state: an offset leaves the
deliveries only when it is acknowledged and the frontier passes it, and a new
value to commit lies above the acknowledged offset and above the old frontier. -/
structure Acknowledges (offset : Int) (before after : PartitionAckState) : Prop where
  pending : ∀ other ∈ after.pending, other ∈ before.pending ∨ other = offset
  kept : ∀ other ∈ after.delivered, other ∈ before.delivered
  passed : ∀ other ∈ before.delivered, other ∉ after.delivered →
    (other ∈ before.pending ∨ other = offset) ∧ after.reached other = true
  reached : ∀ other, before.reached other = true → after.reached other = true
  frontier : ∀ frontier, after.frontier = some frontier →
    before.frontier = some frontier ∨ frontier ∈ before.delivered ∨
      before.frontier = none ∧ frontier = offset
  commitValue : ∀ value, after.commitValue = some value →
    before.commitValue = some value ∨ offset < value ∧ before.reached value = false

theorem acknowledges_self (offset : Int) (state : PartitionAckState) :
    Acknowledges offset state state :=
  ⟨fun _ waiting => Or.inl waiting, fun _ membership => membership,
    fun _ membership absent => absurd membership absent, fun _ reached => reached,
    fun _ tracked => Or.inl tracked, fun _ value => Or.inl value⟩

theorem acknowledges_drain (wellFormed : state.WellFormed) {frontier : Int}
    (tracked : state.frontier = some frontier) (delivered : offset ∈ state.delivered) :
    Acknowledges offset state (drain { state with pending := state.pending.insert offset }) := by
  have drained := drained_recordAck wellFormed delivered
  rcases drained.moved with
    unchanged | ⟨least, moved, isFirst, acknowledged, isFrontier, wasDelivered, below⟩
  · rw [unchanged]
    exact {
      acknowledges_self offset state with
      pending := fun other waiting => (OrdSet.mem_insert.mp waiting).symm }
  · have above : frontier < moved := wellFormed.above frontier tracked moved wasDelivered
    have least_eq : least = offset := by
      -- The first delivery did not wait before, so this acknowledgement is its own.
      rcases OrdSet.mem_insert.mp acknowledged with same | waiting
      · exact same
      · exact absurd waiting (wellFormed.firstWaits least isFirst)
    refine ⟨?_, drained.kept, ?_, ?_, ?_, ?_⟩
    · intro other waiting
      exact (OrdSet.mem_insert.mp (drained.pendingKept other waiting).1).symm
    · intro other membership absent
      obtain ⟨waiting, passed⟩ := drained.removed other membership absent
      exact ⟨(OrdSet.mem_insert.mp waiting).symm, reached_iff.mpr passed⟩
    · intro other reached
      obtain ⟨found, equality, bound⟩ := reached_iff.mp reached
      rw [tracked] at equality
      cases equality
      exact reached_iff.mpr ⟨moved, isFrontier, bound.trans above.le⟩
    · intro found equality
      rw [isFrontier] at equality
      cases equality
      exact Or.inr (Or.inl wasDelivered)
    · intro value committed
      obtain ⟨found, equality, _, _, rfl⟩ := commitValue_eq_some.mp committed
      rw [isFrontier] at equality
      cases equality
      refine Or.inr ⟨by omega, ?_⟩
      simp only [reached, tracked, Option.any_some, decide_eq_false_iff_not]
      omega

theorem acknowledges_recordAck (wellFormed : state.WellFormed) (offset : Int) :
    Acknowledges offset state (state.recordAck offset).2 := by
  rcases recordAck_cases wellFormed offset with
    ⟨unseeded, result⟩ | ⟨_, result⟩ | ⟨_, _, result⟩ | ⟨_, tracked, _, delivered, result⟩
  · rw [result]
    have untouched := wellFormed.unseeded unseeded
    subst untouched
    refine ⟨by simp, by simp, by simp, by simp [reached], by simp [eq_comm], ?_⟩
    intro value committed
    obtain ⟨frontier, equality, _, _, rfl⟩ := commitValue_eq_some.mp committed
    cases equality
    exact Or.inr ⟨by omega, by simp [reached]⟩
  · rw [result]
    exact acknowledges_self offset state
  · rw [result]
    exact acknowledges_self offset state
  · rw [result]
    exact acknowledges_drain wellFormed tracked delivered

end PartitionAckState

end KrabkaGateway.Consume
