import Mathlib.Algebra.BigOperators.Group.Finset.Basic
import KrabkaGateway.Consume.Frontier
import KrabkaGateway.Consume.Delivery

/-!
# The stream's own maps

`subscribe_inner` keeps the delivered offsets and the last frontier of each partition beside
the session's tracker. Looking for offsets to prune is paid for by the offsets that were
put in. What the maps answer about an acknowledgement agrees with the tracker as long as
`commit_acked` finds every tracked partition still assigned: it drops the tracker of the
others and leaves the maps as they are.
-/

namespace KrabkaGateway.Consume

open Lib

/-! ## The cost of pruning -/

/-- An insertion into the delivered map, or a call of `mark_acknowledged`. -/
inductive BooksCall where
  | deliver (record : Coordinate)
  | mark (key : TopicPartition) (frontier : Int)

namespace BooksCall

def key : BooksCall → TopicPartition
  | .deliver record => record.key
  | .mark key _ => key

end BooksCall

namespace Books

def call (books : Books) : BooksCall → Option Books
  | .deliver record => some (books.deliver [record])
  | .mark key frontier => some (books.markAcknowledged key frontier).2

/-- The value that the call returns. -/
def inspected (books : Books) : BooksCall → Nat
  | .deliver _ => 0
  | .mark key frontier => (books.markAcknowledged key frontier).1

def added (books : Books) : BooksCall → Nat
  | .deliver record => if record.offset ∈ books.delivered record.key then 0 else 1
  | .mark _ _ => 0

/-- One if the call is a `mark_acknowledged`. -/
def marked (_ : Books) : BooksCall → Nat
  | .deliver _ => 0
  | .mark _ _ => 1

/-- A frontier above the one remembered. -/
def Advances (books : Books) (key : TopicPartition) (frontier : Int) : Prop :=
  ∀ previous, books.acknowledged key = some previous → previous < frontier

end Books

theorem elems_pruneFrom (frontier : Int) (list : List Int) (offsets : OrdSet Int)
    (listed : offsets.elems = list) :
    (pruneFrom frontier list offsets).2.elems = list.dropWhile (· ≤ frontier) := by
  induction list generalizing offsets with
  | nil => exact listed
  | cons next rest ih =>
    unfold pruneFrom
    split
    · rename_i above
      rw [List.dropWhile_cons_of_neg (by simpa using above)]
      exact listed
    · rename_i below
      rw [List.dropWhile_cons_of_pos (by simpa using below)]
      exact ih offsets.popFirst (by simp [OrdSet.popFirst, listed])

theorem inspected_pruneFrom (frontier : Int) (list : List Int) (offsets : OrdSet Int)
    (listed : offsets.elems = list) :
    (pruneFrom frontier list offsets).1 + (pruneFrom frontier list offsets).2.length ≤
      list.length + 1 := by
  induction list generalizing offsets with
  | nil => simp [pruneFrom, OrdSet.length, listed]
  | cons next rest ih =>
    have once := ih offsets.popFirst (by simp [OrdSet.popFirst, listed])
    unfold pruneFrom
    split
    · simp only [OrdSet.length, listed, List.length_cons]
      omega
    · simp only [List.length_cons]
      omega

theorem mem_dropWhile_le {frontier offset : Int} {list : List Int}
    (sorted : list.Pairwise (· < ·)) :
    offset ∈ list.dropWhile (· ≤ frontier) ↔ offset ∈ list ∧ frontier < offset := by
  induction list with
  | nil => simp
  | cons head tail ih =>
    obtain ⟨below, tailSorted⟩ := List.pairwise_cons.mp sorted
    by_cases passed : head ≤ frontier
    · rw [List.dropWhile_cons_of_pos (by simpa using passed), ih tailSorted]
      constructor
      · exact fun ⟨member, above⟩ => ⟨List.mem_cons_of_mem _ member, above⟩
      · rintro ⟨member, above⟩
        rcases List.mem_cons.mp member with rfl | member
        · omega
        · exact ⟨member, above⟩
    · rw [List.dropWhile_cons_of_neg (by simpa using passed)]
      refine ⟨fun member => ⟨member, ?_⟩, And.left⟩
      rcases List.mem_cons.mp member with rfl | member
      · omega
      · have higher := below offset member
        omega

namespace Books

variable {books : Books} {key : TopicPartition} {frontier : Int}

theorem markAcknowledged_stale (stale : ¬ books.Advances key frontier) :
    books.markAcknowledged key frontier = (0, books) := by
  have known : (books.acknowledged key).any (fun previous => frontier ≤ previous) = true := by
    cases found : books.acknowledged key with
    | none => simp [Advances, found] at stale
    | some previous => simpa [Advances, found] using stale
  simp [markAcknowledged, known]

theorem markAcknowledged_advances (advances : books.Advances key frontier) :
    books.markAcknowledged key frontier =
      ((pruneFrom frontier (books.delivered key).elems (books.delivered key)).1,
        { books with
          acknowledged := set books.acknowledged key (some frontier)
          delivered := set books.delivered key
            (pruneFrom frontier (books.delivered key).elems (books.delivered key)).2 }) := by
  have unknown : (books.acknowledged key).any (fun previous => frontier ≤ previous) = false := by
    cases found : books.acknowledged key with
    | none => rfl
    | some previous => simpa using advances previous found
  simp [markAcknowledged, unknown]

/-- Exactly the offsets above an advancing frontier remain. -/
theorem mem_delivered_markAcknowledged (advances : books.Advances key frontier) (offset : Int) :
    offset ∈ (books.markAcknowledged key frontier).2.delivered key ↔
      offset ∈ books.delivered key ∧ frontier < offset := by
  rw [markAcknowledged_advances advances]
  simp only [set_self]
  rw [OrdSet.mem_def, elems_pruneFrom _ _ _ rfl, mem_dropWhile_le (books.delivered key).sorted]
  rfl

/-- The number of offsets that the partitions hold. -/
def held (keys : Finset TopicPartition) (books : Books) : Nat :=
  ∑ key ∈ keys, (books.delivered key).length

variable {keys : Finset TopicPartition}

theorem held_set (books : Books) (key : TopicPartition) (member : key ∈ keys) (offsets : OrdSet Int)
    (acknowledged : TopicPartition → Option Int) :
    held keys { books with delivered := set books.delivered key offsets, acknowledged } +
        (books.delivered key).length =
      held keys books + offsets.length := by
  have others : ∀ other ∈ keys.erase key,
      (set books.delivered key offsets other).length = (books.delivered other).length := by
    intro other rest
    rw [set_ne _ _ (Finset.ne_of_mem_erase rest)]
  unfold held
  rw [← Finset.add_sum_erase keys _ member, ← Finset.add_sum_erase keys _ member,
    Finset.sum_congr rfl others]
  simp only [set_self]
  omega

theorem call_paid {next : Books} {call : BooksCall} (member : call.key ∈ keys)
    (taken : books.call call = some next) :
    books.inspected call + held keys next ≤
      (books.added call + books.marked call) + held keys books := by
  cases call with
  | deliver record =>
    cases taken
    have changed := held_set books record.key member
      ((books.delivered record.key).insert record.offset) books.acknowledged
    have grown : ((books.delivered record.key).insert record.offset).length ≤
        (books.delivered record.key).length + books.added (.deliver record) := by
      simp only [added]
      split
      · rename_i known
        exact OrdSet.length_insert_of_mem known
      · exact OrdSet.length_insert_le _ _
    simp only [inspected, marked, deliver, List.foldl_cons, List.foldl_nil]
    omega
  | mark key frontier =>
    cases taken
    by_cases advances : books.Advances key frontier
    · have changed := held_set books key member
        (pruneFrom frontier (books.delivered key).elems (books.delivered key)).2
        (set books.acknowledged key (some frontier))
      have bound := inspected_pruneFrom frontier _ (books.delivered key) rfl
      simp only [inspected, added, marked, markAcknowledged_advances advances]
      simp only [OrdSet.length] at *
      omega
    · simp [inspected, added, marked, markAcknowledged_stale advances]

theorem along_keys (books : Books) (calls : List BooksCall)
    (listed : ∀ call ∈ calls, call.key ∈ keys) :
    Run.Along Books.call (fun _ call => call.key ∈ keys) books calls := by
  induction calls generalizing books with
  | nil => trivial
  | cons call rest ih =>
    exact ⟨listed call List.mem_cons_self, fun next _ =>
      ih next fun other member => listed other (List.mem_cons_of_mem _ member)⟩

/-- What `mark_acknowledged` looks at in a whole run is paid by the insertions that added an offset
and by the calls, and after a call with an advancing frontier exactly the offsets above it
remain. -/
theorem pruning_is_amortized {calls : List BooksCall} {books : Books}
    (run : Run.exec Books.call Books.new calls = some books) :
    Run.cost Books.call Books.inspected Books.new calls ≤
        Run.cost Books.call Books.added Books.new calls +
          Run.cost Books.call Books.marked Books.new calls ∧
      ∀ key frontier, books.Advances key frontier →
        ∀ offset, offset ∈ (books.markAcknowledged key frontier).2.delivered key ↔
          offset ∈ books.delivered key ∧ frontier < offset := by
  refine ⟨?_, fun key frontier advances offset =>
    mem_delivered_markAcknowledged advances offset⟩
  have listed : ∀ call ∈ calls, call.key ∈ (calls.map BooksCall.key).toFinset := by
    intro call member
    exact List.mem_toFinset.mpr (List.mem_map_of_mem member)
  have paid : Run.cost Books.call Books.inspected Books.new calls +
        held (calls.map BooksCall.key).toFinset books ≤
      Run.cost Books.call (fun books call => books.added call + books.marked call) Books.new calls +
        held (calls.map BooksCall.key).toFinset Books.new :=
    Run.cost_add_potential_le (held (calls.map BooksCall.key).toFinset)
      (fun _ _ _ member taken => call_paid member taken) (along_keys Books.new calls listed) run
  have nothing : held (calls.map BooksCall.key).toFinset Books.new = 0 := by
    simp [held, Books.new, OrdSet.length]
  rw [Run.cost_add, nothing] at paid
  omega

/-- Three deliveries of one partition and a call for its first two. -/
def pruningCalls : List BooksCall :=
  [.deliver ⟨("orders", 0), 4⟩, .deliver ⟨("orders", 0), 6⟩, .deliver ⟨("orders", 0), 9⟩,
    .mark ("orders", 0) 6]

theorem pruning_of_three_offsets :
    ∃ books, Run.exec Books.call Books.new pruningCalls = some books ∧
      Run.cost Books.call Books.inspected Books.new pruningCalls ≤
        Run.cost Books.call Books.added Books.new pruningCalls +
          Run.cost Books.call Books.marked Books.new pruningCalls := by
  exact ⟨_, rfl, (pruning_is_amortized rfl).1⟩

example : Run.cost Books.call Books.inspected Books.new pruningCalls = 3 := by decide

/-! ## Answers to acknowledgements -/

/-- What the maps say of an acknowledgement is what the tracker will do with it. -/
def AnswersAgree (books : Books) (record : Coordinate) : Prop :=
  (books.validateAck record = .fresh → (books.tracker.recordAck record).1 = .ok ()) ∧
    (books.validateAck record = .repeated →
      ∃ frontier, books.tracker.ackFrontier record.key = some frontier ∧ record.offset ≤ frontier)

/-- The tracker has reached every remembered frontier, and it waits for a delivered offset or has
passed it. -/
structure Agree (books : Books) : Prop where
  sound : books.tracker.Sound fun _ => True
  acknowledged : ∀ key previous, books.acknowledged key = some previous →
    (books.tracker.entry key).reached previous = true
  delivered : ∀ record, record.Valid → record.offset ∈ books.delivered record.key →
    books.tracker.Accounted (fun _ => True) record

theorem agree_new : Agree Books.new where
  sound := ⟨by simp [Books.new], by simp [Books.new]⟩
  acknowledged := by simp [Books.new]
  delivered := by simp [Books.new]

variable {tracker : AckTracker} {record : Coordinate}

theorem recordAck_of_accounted (sound : tracker.Sound fun _ => True)
    (accounted : record.Valid → tracker.Accounted (fun _ => True) record) :
    (tracker.recordAck record).1 = .ok () := by
  by_cases valid : record.Valid
  · obtain ⟨state, found, cases⟩ := accounted valid
    have accepted : (state.recordAck record.offset).1 = .ok () := by
      rcases PartitionAckState.recordAck_cases (sound.wellFormed _ _ found) record.offset with
        ⟨_, result⟩ | ⟨_, result⟩ | ⟨_, absent, result⟩ | ⟨_, _, _, _, result⟩
      · rw [result]
      · rw [result]
      · rcases cases with waits | ⟨reached, _⟩
        · exact absurd waits absent
        · obtain ⟨frontier, tracked, _⟩ := PartitionAckState.reached_iff.mp reached
          simp [PartitionAckState.recordAck, tracked, reached]
      · rw [result]
    obtain ⟨partition, offset⟩ := valid
    simp [AckTracker.recordAck, AckTracker.update, not_lt.mpr partition, not_lt.mpr offset,
      AckTracker.entry, found, accepted, Except.mapError]
  · rw [AckTracker.recordAck, AckTracker.update_of_not_valid valid]

theorem Agree.answers (agree : books.Agree) (record : Coordinate) : books.AnswersAgree record := by
  constructor
  · intro fresh
    apply recordAck_of_accounted agree.sound
    intro valid
    apply agree.delivered record valid
    unfold validateAck at fresh
    split at fresh
    · cases fresh
    · split at fresh
      · cases fresh
      · rename_i known
        simp only [not_or, not_not] at known
        exact known.2
  · intro repeated
    unfold validateAck at repeated
    split at repeated
    · rename_i passed
      obtain ⟨previous, found, below⟩ := (Option.any_eq_true _ _).mp passed
      have reached := agree.acknowledged record.key previous found
      obtain ⟨frontier, tracked, bound⟩ := PartitionAckState.reached_iff.mp reached
      refine ⟨frontier, ?_, (of_decide_eq_true below).trans bound⟩
      cases entry : books.tracker record.key with
      | none => simp [AckTracker.entry, entry] at tracked
      | some state => simpa [AckTracker.ackFrontier, AckTracker.entry, entry] using tracked
    · split at repeated <;> cases repeated

/-! ## What the operations keep -/

variable {offset : Int}

theorem reached_recordAck (sound : tracker.Sound fun _ => True) (record : Coordinate)
    (reached : (tracker.entry key).reached offset = true) :
    ((tracker.recordAck record).2.entry key).reached offset = true := by
  rcases tracker.entry_recordAck record key with unchanged | ⟨_, result⟩
  · rwa [unchanged]
  · rw [result]
    exact (PartitionAckState.acknowledges_recordAck (sound.entry key) record.offset).reached
      offset reached

theorem reached_recordDelivery (record : Coordinate)
    (reached : (tracker.entry key).reached offset = true) :
    ((tracker.recordDelivery record).2.entry key).reached offset = true := by
  rcases tracker.entry_recordDelivery record key with unchanged | ⟨_, result⟩
  · rwa [unchanged]
  · rw [result]
    rcases ((tracker.entry key).registers_recordDelivery record.offset).frontier with
      same | ⟨unseeded, _⟩
    · rwa [PartitionAckState.reached, same]
    · simp [PartitionAckState.reached, unseeded] at reached

variable (agree : books.Agree)
include agree

theorem Agree.withTracker (sound : tracker.Sound fun _ => True)
    (reached : ∀ key offset, (books.tracker.entry key).reached offset = true →
      (tracker.entry key).reached offset = true)
    (accounted : ∀ record, books.tracker.Accounted (fun _ => True) record →
      tracker.Accounted (fun _ => True) record) : Agree { books with tracker } :=
  ⟨sound, fun key previous found => reached key previous (agree.acknowledged key previous found),
    fun record valid member => accounted record (agree.delivered record valid member)⟩

theorem Agree.markAcknowledged (current : books.tracker.ackFrontier key = some frontier) :
    (books.markAcknowledged key frontier).2.Agree := by
  by_cases advances : books.Advances key frontier
  · refine ⟨by simpa using agree.sound, ?_, ?_⟩
    · intro other previous found
      rw [markAcknowledged_tracker]
      rw [markAcknowledged_advances advances] at found
      by_cases same : other = key
      · subst same
        simp only [set_self, Option.some.injEq] at found
        subst found
        apply PartitionAckState.reached_iff.mpr
        refine ⟨frontier, ?_, le_refl _⟩
        cases entry : books.tracker other with
        | none => simp [AckTracker.ackFrontier, entry] at current
        | some state => simpa [AckTracker.ackFrontier, AckTracker.entry, entry] using current
      · simp only [set_ne _ _ same] at found
        exact agree.acknowledged other previous found
    · intro record valid member
      rw [markAcknowledged_tracker]
      apply agree.delivered record valid
      by_cases same : record.key = key
      · subst same
        exact ((mem_delivered_markAcknowledged advances record.offset).mp member).1
      · rw [markAcknowledged_advances advances] at member
        simpa only [set_ne _ _ same] using member
  · rw [markAcknowledged_stale advances]
    exact agree

theorem Agree.acknowledge (record : Coordinate) : (books.acknowledge record).2.Agree := by
  have tracked : Agree { books with tracker := (books.tracker.recordAck record).2 } :=
    agree.withTracker (agree.sound.recordAck trivial)
      (fun _ _ reached => reached_recordAck agree.sound record reached)
      (fun _ accounted => accounted.recordAck agree.sound trivial)
  unfold Books.acknowledge
  split
  · rename_i result
    rwa [result] at tracked
  · rename_i result
    rw [result] at tracked
    dsimp only
    split
    · exact tracked
    · rename_i frontier current
      exact tracked.markAcknowledged current

theorem Agree.acknowledgeAll (records : List Coordinate) :
    (books.acknowledgeAll records).2.Agree := by
  induction records generalizing books with
  | nil => exact agree
  | cons record rest ih =>
    have once := agree.acknowledge record
    unfold Books.acknowledgeAll
    split
    · rename_i result
      rwa [result] at once
    · rename_i result
      rw [result] at once
      exact ih once

omit agree in
theorem mem_delivered_deliver {records : List Coordinate}
    (member : record.offset ∈ (books.deliver records).delivered record.key) :
    record.offset ∈ books.delivered record.key ∨ record ∈ records := by
  induction records generalizing books with
  | nil => exact Or.inl member
  | cons first rest ih =>
    have later : record.offset ∈
        ((books.deliver [first]).deliver rest).delivered record.key := member
    rcases ih later with old | listed
    · simp only [Books.deliver, List.foldl_cons, List.foldl_nil] at old
      by_cases same : record.key = first.key
      · rw [same, set_self] at old
        rcases OrdSet.mem_insert.mp old with equal | older
        · exact Or.inr (List.mem_cons.mpr (Or.inl (Coordinate.ext same equal)))
        · exact Or.inl (same ▸ older)
      · rw [set_ne _ _ same] at old
        exact Or.inl old
    · exact Or.inr (List.mem_cons_of_mem _ listed)

theorem Agree.register {batch toEmit : List Coordinate} (valid : ∀ record ∈ batch, record.Valid)
    (ascending : AckTracker.Ascending batch) (emits : toEmit ⊆ batch)
    (registered : books.tracker.recordDeliveries batch = (.ok (), tracker)) :
    Agree { books.deliver toEmit with tracker } := by
  have after : tracker = (books.tracker.recordDeliveries batch).2 := by rw [registered]
  have kept : Agree { books with tracker } := by
    subst after
    apply agree.withTracker (agree.sound.recordDeliveries batch)
    · intro key offset reached
      exact AckTracker.recordDeliveries_preserves
        (fun tracker => (tracker.entry key).reached offset = true)
        (fun _ delivery _ reached => reached_recordDelivery delivery reached) reached
    · exact fun record accounted => accounted.recordDeliveries batch
  refine ⟨kept.sound, kept.acknowledged, ?_⟩
  intro record isValid member
  rcases mem_delivered_deliver member with old | listed
  · exact kept.delivered record isValid old
  · rcases AckTracker.recordDeliveries_ok valid ascending registered record (emits listed) with
      ⟨state, found, waits⟩ | ⟨state, found, reached⟩
    · exact ⟨state, found, Or.inl waits⟩
    · have before : books.tracker.Accounted (fun _ => True) record :=
        ⟨state, found, Or.inr ⟨reached, trivial⟩⟩
      subst after
      exact before.recordDeliveries batch

theorem Agree.recordCommit :
    Agree { books with tracker := books.tracker.recordCommit books.tracker.ackedOffsets } := by
  apply agree.withTracker agree.sound.recordCommit
  · intro key offset reached
    rcases books.tracker.entry_recordCommit key with ⟨_, unchanged⟩ | ⟨next, _, result⟩
    · rwa [unchanged]
    · rw [result]
      exact reached
  · exact fun record accounted => accounted.recordCommit

end Books

namespace Subscription

variable {visible : TopicPartition → Int → Bool}

/-- When `commit_acked` reads the assignment, every partition that the session tracks is in it. -/
def CommitsOwned (stream : Subscription) (action : Action) : Prop :=
  action = .readAssignment → ∀ key, (stream.books.tracker key).isSome →
    stream.group.assigned key = true

variable {stream : Subscription}

theorem retain_of_owned
    (owned : ∀ key, (stream.books.tracker key).isSome → stream.group.assigned key = true) :
    stream.books.tracker.retain stream.group.assigned = stream.books.tracker := by
  funext key
  unfold AckTracker.retain
  split
  · rfl
  · rename_i lost
    cases found : stream.books.tracker key with
    | none => rfl
    | some state => exact absurd (owned key (by simp [found])) lost

structure Answering (stream : Subscription) : Prop where
  explicit : stream.autoCommit = false
  books : stream.phase.isClosed = false → stream.books.Agree

theorem answering_start (committed : TopicPartition → Int) : Answering (start false committed) :=
  ⟨rfl, fun _ => Books.agree_new⟩

theorem Answering.receive (answering : stream.Answering) (running : stream.phase.isClosed = false)
    (frame : Frame) : (stream.receive frame).Answering := by
  have agree := answering.books running
  have explicit := answering.explicit
  cases frame with
  | ack record =>
    have acknowledged := agree.acknowledge record
    simp only [Subscription.receive, explicit, Bool.false_eq_true, if_false]
    split
    · exact ⟨rfl, fun _ => agree⟩
    · exact ⟨rfl, by simp [Phase.isClosed]⟩
    · split
      · rename_i result
        rw [result] at acknowledged
        exact ⟨rfl, fun _ => acknowledged⟩
      · exact ⟨rfl, by simp [Phase.isClosed]⟩
  | other => exact ⟨explicit, fun _ => agree⟩
  | failed | ended => exact ⟨explicit, by simp [Subscription.receive, Phase.isClosed]⟩

theorem Answering.register (answering : stream.Answering) (running : stream.phase.isClosed = false)
    {batch : List Coordinate} (valid : ∀ record ∈ batch, record.Valid)
    (ascending : AckTracker.Ascending batch) (keep : Coordinate → Bool) :
    (stream.register batch keep).Answering := by
  have agree := answering.books running
  have explicit := answering.explicit
  simp only [Subscription.register, explicit, Bool.false_eq_true, if_false, Books.deliver_tracker]
  split
  · rename_i registered
    exact ⟨rfl, fun _ => agree.register valid ascending (List.filter_subset_self _) registered⟩
  · exact ⟨rfl, by simp [Phase.isClosed]⟩

theorem Answering.settle (answering : stream.Answering) (running : stream.phase.isClosed = false)
    (filteredAcks : List Coordinate) (commit : Bool) :
    (stream.settle filteredAcks commit).Answering := by
  have explicit := answering.explicit
  have acknowledged := (answering.books running).acknowledgeAll filteredAcks
  simp only [Subscription.settle, explicit, Bool.false_eq_true, if_false]
  split
  · rename_i result
    rw [result] at acknowledged
    exact ⟨rfl, fun _ => acknowledged⟩
  · exact ⟨rfl, by simp [Phase.isClosed]⟩

theorem Answering.readAssignment (answering : stream.Answering)
    (running : stream.phase.isClosed = false)
    (owned : ∀ key, (stream.books.tracker key).isSome → stream.group.assigned key = true) :
    stream.readAssignment.Answering := by
  refine ⟨answering.explicit, fun _ => ?_⟩
  rw [Subscription.readAssignment, retained, retain_of_owned owned]
  exact answering.books running

theorem Answering.commitDone (answering : stream.Answering) (due : stream.CommitDue) :
    stream.commitDone.Answering := by
  have explicit := answering.explicit
  have sending := due.sending explicit
  have committed := (answering.books (by simp [sending, Phase.isClosed])).recordCommit
  refine ⟨explicit, fun _ => ?_⟩
  simpa [Subscription.commitDone, explicit, commitOffsets_of_sending explicit sending] using
    committed

theorem answering_step {next : Subscription} {action : Action} (coherent : stream.Coherent visible)
    (answering : stream.Answering) (owned : stream.CommitsOwned action)
    (taken : step visible stream action = some next) : next.Answering := by
  have explicit := answering.explicit
  cases step_cases taken with
  | assign | revoke | otherCommit | nativeCommit => exact ⟨explicit, answering.books⟩
  | nativePoll phase | emit phase =>
    exact ⟨explicit, fun _ => answering.books (by simp [phase, Phase.isClosed])⟩
  | decoded phase =>
    obtain ⟨ascending, readable⟩ := coherent.decoding _ phase
    exact answering.register (by simp [phase, Phase.isClosed])
      (fun record member => (readable record member).1) ascending _
  | closed => exact ⟨explicit, by simp [close, Phase.isClosed]⟩
  | frame phase =>
    apply answering.receive
    rcases phase with phase | ⟨batch, phase⟩ <;> simp [phase, Phase.isClosed]
  | acknowledge phase => exact answering.settle (by simp [phase, Phase.isClosed]) _ _
  | readAssignment phase =>
    exact answering.readAssignment (by simp [phase, Phase.isClosed]) (owned rfl)
  | commit due => exact answering.commitDone due
  | commitFailed => exact ⟨explicit, by simp [commitAborted, Phase.isClosed]⟩

/-- In a run in which every commit finds the tracked partitions assigned, the answers to
acknowledgements agree with the tracker as long as the stream is open. -/
theorem ack_answers_agree (visible : TopicPartition → Int → Bool)
    (committed : TopicPartition → Int) (actions : List Action) (stream : Subscription)
    (along : Run.Along (step visible) CommitsOwned (start false committed) actions)
    (run : Run.exec (step visible) (start false committed) actions = some stream)
    (running : stream.phase.isClosed = false) (record : Coordinate) :
    stream.books.AnswersAgree record := by
  have ⟨_, answering⟩ : stream.Coherent visible ∧ stream.Answering :=
    Run.exec_preserves (fun stream => stream.Coherent visible ∧ stream.Answering)
      (fun _ _ _ ⟨coherent, answering⟩ owned taken =>
        ⟨coherent_step coherent taken, answering_step coherent answering owned taken⟩)
      ⟨coherent_start false committed, answering_start committed⟩ along run
  exact (answering.books running).answers record

/-- A run with one commit, which ends it: the condition is about one state. -/
theorem commitsOwned_along_of_commit_last {actions : List Action}
    (quiet : ∀ action ∈ actions, action ≠ .readAssignment)
    (owned : ∀ final, Run.exec (step visible) stream actions = some final →
      final.CommitsOwned .readAssignment) :
    Run.Along (step visible) CommitsOwned stream (actions ++ [.readAssignment, .commit]) := by
  induction actions generalizing stream with
  | nil => exact ⟨owned stream rfl, fun _ _ => ⟨by rintro ⟨⟩, fun _ _ => trivial⟩⟩
  | cons action rest ih =>
    refine ⟨fun commits => absurd commits (quiet action List.mem_cons_self), ?_⟩
    intro next taken
    apply ih (fun later member => quiet later (List.mem_cons_of_mem _ member))
    intro final run
    exact owned final (Run.exec_cons_eq_some.mpr ⟨next, taken, run⟩)

theorem ack_answers_agree_after_return :
    ∃ stream, Run.exec (step fun _ _ => true) (start false fun _ => 0)
        (acknowledgedAfterReturn ++ [.readAssignment, .commit]) = some stream ∧
      stream.phase.isClosed = false ∧
      stream.books.validateAck ⟨orders, 0⟩ = .repeated ∧
      stream.books.validateAck ⟨orders, 1⟩ = .fresh ∧
      stream.books.AnswersAgree ⟨orders, 0⟩ ∧ stream.books.AnswersAgree ⟨orders, 1⟩ := by
  have along : Run.Along (step fun _ _ => true) CommitsOwned (start false fun _ => 0)
      (acknowledgedAfterReturn ++ [.readAssignment, .commit]) := by
    apply commitsOwned_along_of_commit_last
    · simp [acknowledgedAfterReturn]
    · intro stream run _ key tracked
      by_cases same : key = orders
      · obtain rfl := Option.some.inj run
        rw [same]
        rfl
      · -- Five updates of the tracker, all of `orders`.
        have untracked : stream.books.tracker key = none := by
          obtain rfl := Option.some.inj run
          exact (set_ne _ _ same).trans ((set_ne _ _ same).trans ((set_ne _ _ same).trans
            ((set_ne _ _ same).trans ((set_ne _ _ same).trans rfl))))
        rw [untracked] at tracked
        cases tracked
  exact ⟨_, rfl, rfl, by decide, by decide,
    ack_answers_agree _ _ _ _ along rfl rfl _, ack_answers_agree _ _ _ _ along rfl rfl _⟩

/-- Offset 5 of `orders` is delivered and acknowledged, but the partition is revoked before the
commit, which drops its tracker. It comes back at 5, and the record is delivered again. -/
def lostAcknowledgement : List Action :=
  [.assign orders, .nativePoll [orders] fun _ => 6, .decoded fun _ => true, .emit, .acknowledge,
    .frame (.ack ⟨orders, 5⟩), .revoke orders, .readAssignment, .commit, .assign orders,
    .nativePoll [orders] fun _ => 6, .decoded fun _ => true, .emit, .acknowledge]

/-- The acknowledgement of the redelivered record is taken for a repeated one, although the
session's frontier lies below it. -/
theorem lost_acknowledgement_is_ignored :
    ∃ stream, Run.exec (step fun _ _ => true) (start false fun _ => 5) lostAcknowledgement =
        some stream ∧
      stream.phase = .select ∧ (⟨orders, 5⟩, 2) ∈ stream.emitted ∧
      stream.books.validateAck ⟨orders, 5⟩ = .repeated ∧
      stream.books.tracker.ackFrontier orders = some 4 :=
  ⟨_, rfl, rfl, by decide, by decide, rfl⟩

/-- Here the tracker is dropped by a commit for another partition and comes back with less than was
delivered before: an offset that passes the check is refused by the tracker. -/
example :
    (Run.exec (step fun _ _ => true) (start false fun _ => 0)
      [.assign orders, .assign ("orders", 1), .nativePoll [orders, ("orders", 1)] fun _ => 2,
        .decoded fun _ => true, .emit, .emit, .emit, .emit, .acknowledge, .revoke orders,
        .frame (.ack ⟨("orders", 1), 0⟩), .readAssignment, .commit, .assign orders,
        .nativePoll [orders] fun _ => 1, .decoded fun _ => true, .emit, .acknowledge]).map
      (fun stream => (stream.books.validateAck ⟨orders, 1⟩,
        (stream.books.tracker.recordAck ⟨orders, 1⟩).1.isOk)) =
    some (.fresh, false) := by
  decide

end Subscription

end KrabkaGateway.Consume
