import KrabkaGateway.Consume.Delivery

/-!
# Committed offsets do not go back

`commit_acked` discards the state of partitions that are missing from the
assignment when it runs. A partition that was revoked, consumed by another
member and assigned again between two calls keeps its old state, so an
acknowledgement of a record from before the revocation can commit an offset
that the group has long passed. So can a commit that is on its way while the
partition is revoked and another member commits it. Acknowledgements of records
polled since the partition was last assigned cannot, while no tracked partition
changes hands around a commit.
-/

namespace KrabkaGateway.Consume.Subscription

open Lib

variable {visible : TopicPartition → Int → Bool}

/-- The record was polled since its partition was last assigned. -/
def Fresh (group : Group) (record : Coordinate) : Prop :=
  (record, group.epoch record.key) ∈ group.polled

instance (group : Group) (record : Coordinate) : Decidable (Fresh group record) :=
  inferInstanceAs (Decidable (_ ∈ _))

/-- The step records only acknowledgements of fresh records. A partition that the
session tracks is not assigned between an acknowledgement and the end of its
commit, and not committed by another member while the commit is on its way. -/
def freshAcks (stream : Subscription) : Action → Bool
  | .frame (.ack record) =>
    stream.books.validateAck record ≠ .fresh ∨ Fresh stream.group record
  | .acknowledge =>
    match stream.phase with
    | .emitting [] filteredAcks _ => filteredAcks.all fun record => Fresh stream.group record
    | _ => true
  | .assign key =>
    (stream.phase ≠ .committing ∧ stream.phase ≠ .sending) ∨ stream.books.tracker key = none
  | .otherCommit key _ => stream.phase ≠ .sending ∨ stream.books.tracker key = none
  | _ => true

/-- Neither a commit is due nor has the stream ended. -/
def Working (phase : Phase) : Prop :=
  phase ≠ .committing ∧ phase ≠ .sending ∧ ∀ error, phase ≠ .closed error

theorem Working.running {phase : Phase} (working : Working phase) : phase.isClosed = false := by
  cases phase with
  | closed error => exact absurd rfl (working.2.2 error)
  | _ => rfl

/-- What a commit of the tracked frontier of one partition would do: the
frontier is not behind the committed offset, except while the partition has
not moved since it was assigned, and then nothing is to be committed. -/
structure Ahead (group : Group) (key : TopicPartition) (state : PartitionAckState) : Prop where
  wellFormed : state.WellFormed
  bounded : group.assigned key = true → group.committed key = group.resumed key ∨
    ∃ frontier, state.frontier = some frontier ∧ group.committed key ≤ frontier + 1
  value : ∀ next, group.assigned key = true → state.commitValue = some next →
    group.committed key ≤ next

variable {group : Group} {key : TopicPartition} {state : PartitionAckState}

theorem Ahead.recordDelivery (ahead : Ahead group key state) (offset : Int) :
    Ahead group key (state.recordDelivery offset).2 := by
  have registers := state.registers_recordDelivery offset
  refine ⟨PartitionAckState.wellFormed_recordDelivery ahead.wellFormed offset, ?_, ?_⟩
  · intro held
    rcases ahead.bounded held with unmoved | ⟨frontier, tracked, bound⟩
    · exact Or.inl unmoved
    · rcases registers.frontier with same | ⟨unseeded, _⟩
      · exact Or.inr ⟨frontier, same.trans tracked, bound⟩
      · simp [tracked] at unseeded
  · intro next held value
    exact ahead.value next held (registers.commitValue ▸ value)

theorem Ahead.recordAck (ahead : Ahead group key state) {offset : Int}
    (above : group.assigned key = true → group.resumed key ≤ offset) :
    Ahead group key (state.recordAck offset).2 := by
  have acknowledges := PartitionAckState.acknowledges_recordAck ahead.wellFormed offset
  refine ⟨PartitionAckState.wellFormed_recordAck ahead.wellFormed offset, ?_, ?_⟩
  · intro held
    rcases ahead.bounded held with unmoved | ⟨frontier, tracked, bound⟩
    · exact Or.inl unmoved
    · -- The frontier only moves up.
      have reached := acknowledges.reached frontier
        (PartitionAckState.reached_iff.mpr ⟨frontier, tracked, le_refl _⟩)
      obtain ⟨moved, isFrontier, below⟩ := PartitionAckState.reached_iff.mp reached
      exact Or.inr ⟨moved, isFrontier, by omega⟩
  · intro next held value
    rcases acknowledges.commitValue next value with before | ⟨passed, notReached⟩
    · exact ahead.value next held before
    · rcases ahead.bounded held with unmoved | ⟨frontier, tracked, bound⟩
      · have resumed := above held
        omega
      · have notBelow : ¬ next ≤ frontier := by
          simpa [PartitionAckState.reached, tracked] using notReached
        omega

/-- What an explicit-mode stream keeps while its acknowledgements are fresh. -/
structure Forward (stream : Subscription) : Prop where
  explicit : stream.autoCommit = false
  wellFormed : ∀ key, (stream.books.tracker.entry key).WellFormed
  bounded : ∀ key, stream.group.assigned key = true →
    stream.group.committed key = stream.group.resumed key ∨
      ∃ frontier, (stream.books.tracker.entry key).frontier = some frontier ∧
        stream.group.committed key ≤ frontier + 1
  quiet : Working stream.phase → ∀ key, (stream.books.tracker.entry key).commitValue = none
  value : stream.phase = .committing → ∀ key next, stream.group.assigned key = true →
    (stream.books.tracker.entry key).commitValue = some next → stream.group.committed key ≤ next
  sent : stream.phase = .sending → ∀ key next,
    (stream.books.tracker.entry key).commitValue = some next → stream.group.committed key ≤ next

theorem forward_start (committed : TopicPartition → Int) : Forward (start false committed) where
  explicit := rfl
  wellFormed := fun _ => PartitionAckState.wellFormed_default
  bounded := by simp [start, Group.join]
  quiet := fun _ _ => rfl
  value := by simp [start]
  sent := by simp [start]

variable {stream : Subscription}

theorem commitValue_of_untracked (untracked : stream.books.tracker key = none) :
    (stream.books.tracker.entry key).commitValue = none := by
  simp [AckTracker.entry, untracked, PartitionAckState.commitValue]

theorem Forward.ahead (forward : stream.Forward) (working : Working stream.phase)
    (key : TopicPartition) :
    Ahead stream.group key (stream.books.tracker.entry key) where
  wellFormed := forward.wellFormed key
  bounded := forward.bounded key
  value := by simp [forward.quiet working key]

theorem forward_of_ahead (explicit : stream.autoCommit = false)
    (ahead : ∀ key, Ahead stream.group key (stream.books.tracker.entry key))
    (idle : stream.phase = .committing ∨ ∃ error, stream.phase = .closed error) :
    stream.Forward where
  explicit := explicit
  wellFormed := fun key => (ahead key).wellFormed
  bounded := fun key => (ahead key).bounded
  quiet := by
    rintro ⟨notDue, _, running⟩
    rcases idle with committing | ⟨error, closed⟩
    · exact absurd committing notDue
    · exact absurd closed (running error)
  value := fun _ key next => (ahead key).value next
  sent := by rcases idle with phase | ⟨error, phase⟩ <;> simp [phase]

theorem Forward.assign (forward : stream.Forward)
    (fresh : stream.freshAcks (.assign key) = true) :
    Forward { stream with group := stream.group.assign key } := by
  simp only [freshAcks, decide_eq_true_eq] at fresh
  refine ⟨forward.explicit, forward.wellFormed, fun other held => ?_, forward.quiet,
    fun committing other next held value => ?_, forward.sent⟩
  · by_cases same : other = key
    · exact Or.inl (by simp [Group.assign, same])
    · have before := forward.bounded other (by simpa [Group.assign, same] using held)
      simpa [Group.assign, same] using before
  · by_cases same : other = key
    · subst same
      rcases fresh with notDue | untracked
      · exact absurd committing notDue.1
      · cases (commitValue_of_untracked untracked).symm.trans value
    · exact forward.value committing other next (by simpa [Group.assign, same] using held) value

theorem Forward.revoke (forward : stream.Forward) (key : TopicPartition) :
    Forward { stream with group := stream.group.revoke key } :=
  { forward with
    bounded := fun other held => forward.bounded other (Group.held_of_revoke held)
    value := fun committing other next held =>
      forward.value committing other next (Group.held_of_revoke held) }

/-- Another member commits only partitions that are not assigned here. -/
theorem Forward.otherCommit (forward : stream.Forward) (free : stream.group.assigned key = false)
    {offset : Int} (fresh : stream.freshAcks (.otherCommit key offset) = true) :
    Forward { stream with group := stream.group.otherCommit key offset } := by
  have unchanged : ∀ other, stream.group.assigned other = true →
      (stream.group.otherCommit key offset).committed other = stream.group.committed other := by
    intro other held
    have different : other ≠ key := by
      rintro rfl
      simp [free] at held
    simp [Group.otherCommit, different]
  refine ⟨forward.explicit, forward.wellFormed, ?_, forward.quiet, ?_, ?_⟩
  · intro other held
    dsimp only
    rw [unchanged other held]
    exact forward.bounded other held
  · intro committing other next held value
    dsimp only
    rw [unchanged other held]
    exact forward.value committing other next held value
  · intro sending other next value
    by_cases same : other = key
    · subst same
      have untracked : stream.books.tracker other = none := by
        simp only [freshAcks, decide_eq_true_eq] at fresh
        exact fresh.resolve_left fun notSending => notSending sending
      cases (commitValue_of_untracked untracked).symm.trans value
    · simpa [Group.otherCommit, same] using forward.sent sending other next value

/-- A step that leaves the books and the offsets as they are and commits nothing. -/
theorem Forward.idle (forward : stream.Forward) (working : Working stream.phase) {phase : Phase}
    (notDue : phase ≠ .committing ∧ phase ≠ .sending) (emitted : List (Coordinate × Nat))
    (acked filtered : List Coordinate) :
    Forward
      { stream with phase := phase, emitted := emitted, acked := acked, filtered := filtered } :=
  ⟨forward.explicit, forward.wellFormed, forward.bounded, fun _ => forward.quiet working,
    fun committing => absurd committing notDue.1, fun sending => absurd sending notDue.2⟩

theorem Forward.close (forward : stream.Forward) (error : Option ConnectError) :
    Forward (stream.close error) :=
  ⟨forward.explicit, forward.wellFormed, forward.bounded,
    fun working => absurd rfl (working.2.2 error), by simp [Subscription.close],
    by simp [Subscription.close]⟩

theorem Forward.register (forward : stream.Forward) {batch : List Coordinate}
    (phase : stream.phase = .decoding batch) (keep : Coordinate → Bool) :
    Forward (stream.register batch keep) := by
  have working : Working stream.phase := by simp [Working, phase]
  obtain ⟨books, after, result, ⟨auto, _⟩ | ⟨_, tracker_eq, cases⟩⟩ :=
    stream.register_cases batch keep
  · simp [forward.explicit] at auto
  · have kept : ∀ key, Ahead stream.group key (books.tracker.entry key) := by
      rw [tracker_eq]
      refine AckTracker.recordDeliveries_preserves
        (fun tracker => ∀ key, Ahead stream.group key (tracker.entry key)) ?_
        (forward.ahead working)
      intro tracker delivery _ before key
      rcases tracker.entry_recordDelivery delivery key with unchanged | ⟨_, result⟩
      · rw [unchanged]
        exact before key
      · rw [result]
        exact (before key).recordDelivery delivery.offset
    have quiet : ∀ key, (books.tracker.entry key).commitValue = none := by
      intro key
      rw [tracker_eq, AckTracker.commitValue_recordDeliveries]
      exact forward.quiet working key
    have notDue : after ≠ .committing ∧ after ≠ .sending := by
      rcases cases with ⟨_, rfl⟩ | ⟨_, rfl⟩ <;> simp
    rw [result]
    exact ⟨forward.explicit, fun key => (kept key).wellFormed, fun key => (kept key).bounded,
      fun _ => quiet, fun committing => absurd committing notDue.1,
      fun sending => absurd sending notDue.2⟩

theorem Ahead.recordAcks (placed : group.Placed visible) {tracker : AckTracker}
    (ahead : ∀ key, Ahead group key (tracker.entry key)) {ack : Coordinate}
    (fresh : Fresh group ack) (key : TopicPartition) :
    Ahead group key ((tracker.recordAck ack).2.entry key) := by
  rcases tracker.entry_recordAck ack key with unchanged | ⟨rfl, result⟩
  · rw [unchanged]
    exact ahead key
  · rw [result]
    exact (ahead ack.key).recordAck fun held => (placed.current ack held fresh).1

theorem Forward.receive (forward : stream.Forward) (coherent : stream.Coherent visible)
    {frame : Frame} (phase : stream.phase = .select ∨ ∃ batch, stream.phase = .decoding batch)
    (fresh : stream.freshAcks (.frame frame) = true) : Forward (stream.receive frame) := by
  have working : Working stream.phase := by
    rcases phase with idle | ⟨_, decoding⟩ <;> simp_all [Working]
  rcases stream.receive_cases frame with
    ⟨after, acked, result, idle, _⟩ |
      ⟨record, books, after, rfl, _, isFresh, tracker_eq, result, idle⟩
  · rw [result]
    refine forward.idle working ?_ _ _ _
    rcases idle with rfl | ⟨_, rfl⟩ <;> simp
  · rw [result]
    refine forward_of_ahead forward.explicit (fun key => ?_) idle
    dsimp only
    rw [tracker_eq]
    exact Ahead.recordAcks coherent.placed (forward.ahead working)
      (by simpa [freshAcks, isFresh] using fresh) key

theorem Forward.settle (forward : stream.Forward) (coherent : stream.Coherent visible)
    {filteredAcks : List Coordinate} {commit : Bool}
    (phase : stream.phase = .emitting [] filteredAcks commit)
    (fresh : stream.freshAcks .acknowledge = true) :
    Forward (stream.settle filteredAcks commit) := by
  have working : Working stream.phase := by simp [Working, phase]
  obtain ⟨books, after, result, idle, ⟨auto, _⟩ | ⟨_, tracker_eq, nothing⟩⟩ :=
    stream.settle_cases filteredAcks commit
  · simp [forward.explicit] at auto
  · rw [result]
    rcases idle with selects | due
    · rw [nothing selects]
      exact forward.idle working (by simp [selects]) _ _ _
    · refine forward_of_ahead forward.explicit ?_ due
      dsimp only
      rw [tracker_eq]
      refine Books.acknowledgeAll_preserves
        (fun tracker => ∀ key, Ahead stream.group key (tracker.entry key)) ?_
        (forward.ahead working)
      intro tracker ack inside ahead
      have areFresh : ∀ record ∈ filteredAcks, Fresh stream.group record := by
        simpa [freshAcks, phase] using fresh
      exact Ahead.recordAcks coherent.placed ahead (areFresh ack inside)

variable {offsets : TopicPartition → Option Int}

theorem Forward.bounded_commit (forward : stream.Forward)
    (sent : ∀ key next, offsets key = some next → stream.commitOffsets key = some next)
    (key : TopicPartition) (held : stream.group.assigned key = true) :
    (stream.group.commit offsets).committed key = stream.group.resumed key ∨
      ∃ frontier, (stream.books.tracker.entry key).frontier = some frontier ∧
        (stream.group.commit offsets).committed key ≤ frontier + 1 := by
  cases value : offsets key with
  | none => simpa [Group.commit, value] using forward.bounded key held
  | some next =>
    obtain ⟨_, commitValue⟩ := commitOffsets_eq_some forward.explicit (sent key next value)
    obtain ⟨frontier, tracked, _, _, rfl⟩ :=
      PartitionAckState.commitValue_eq_some.mp commitValue
    exact Or.inr ⟨frontier, tracked, by simp [Group.commit, value]⟩

theorem Forward.readAssignment (forward : stream.Forward) (phase : stream.phase = .committing) :
    Forward stream.readAssignment := by
  have entry_eq : ∀ key, stream.readAssignment.books.tracker.entry key =
      if stream.group.assigned key then stream.books.tracker.entry key else {} :=
    stream.books.tracker.entry_retain stream.group.assigned
  refine ⟨forward.explicit, fun key => ?_, fun key held => ?_,
    fun working => absurd rfl working.2.1,
    by simp [Subscription.readAssignment], fun _ key next value => ?_⟩
  · rw [entry_eq]
    split
    · exact forward.wellFormed key
    · exact PartitionAckState.wellFormed_default
  · have isHeld : stream.group.assigned key = true := held
    rw [entry_eq, if_pos isHeld]
    exact forward.bounded key isHeld
  · rw [entry_eq] at value
    split at value
    next held => exact forward.value phase key next held value
    next => simp [PartitionAckState.commitValue] at value

theorem Forward.commitDone (forward : stream.Forward) (due : stream.CommitDue) :
    Forward stream.commitDone := by
  have tracker_eq := commitDone_tracker forward.explicit (due.sending forward.explicit)
  have entries := stream.books.tracker.entry_recordCommit
  rw [← tracker_eq] at entries
  refine ⟨forward.explicit, fun key => ?_, fun key held => ?_, fun _ key => ?_,
    by simp [Subscription.commitDone], by simp [Subscription.commitDone]⟩
  · rcases entries key with ⟨_, unchanged⟩ | ⟨next, value, result⟩
    · rw [unchanged]
      exact forward.wellFormed key
    · rw [result]
      exact PartitionAckState.wellFormed_recordCommit (forward.wellFormed key) value
  · have before := forward.bounded_commit (fun _ _ sent => sent) key held
    rcases entries key with ⟨_, unchanged⟩ | ⟨next, value, result⟩
    · rw [unchanged]
      exact before
    · rw [result]
      exact before
  · rcases entries key with ⟨value, unchanged⟩ | ⟨next, value, result⟩
    · rw [unchanged]
      exact value
    · rw [result]
      exact PartitionAckState.commitValue_recordCommit value

theorem Forward.commitAborted (forward : stream.Forward) (applied : TopicPartition → Bool)
    (message : String) : Forward (stream.commitAborted applied message) := by
  refine ⟨forward.explicit, forward.wellFormed, fun key held => ?_,
    fun working => absurd rfl (working.2.2 _), by simp [Subscription.commitAborted],
    by simp [Subscription.commitAborted]⟩
  exact forward.bounded_commit (fun _ _ sent => (Option.ite_none_right_eq_some.mp sent).2) key held

variable {action : Action}

theorem forward_step {next : Subscription} (coherent : stream.Coherent visible)
    (forward : stream.Forward) (fresh : stream.freshAcks action = true)
    (notNative : action ≠ .nativeCommit) (taken : step visible stream action = some next) :
    next.Forward := by
  cases step_cases taken with
  | assign => exact forward.assign fresh
  | revoke => exact forward.revoke _
  | otherCommit free => exact forward.otherCommit free fresh
  | nativePoll phase =>
    have working : Working stream.phase := by simp [Working, phase]
    exact ⟨forward.explicit, forward.wellFormed, forward.bounded, fun _ => forward.quiet working,
      by simp [Subscription.nativePoll], by simp [Subscription.nativePoll]⟩
  | decoded phase => exact forward.register phase _
  | closed => exact forward.close _
  | frame phase => exact forward.receive coherent phase fresh
  | emit phase =>
    exact forward.idle (by simp [Working, phase]) (by simp) _ stream.acked stream.filtered
  | acknowledge phase => exact forward.settle coherent phase fresh
  | readAssignment phase => exact forward.readAssignment phase
  | commit due => exact forward.commitDone due
  | commitFailed => exact forward.commitAborted _ _
  | nativeCommit => exact absurd rfl notNative

theorem Forward.le_commit (forward : stream.Forward) (due : stream.CommitDue)
    (sent : ∀ key next, offsets key = some next → stream.commitOffsets key = some next)
    (key : TopicPartition) :
    stream.group.committed key ≤ (stream.group.commit offsets).committed key := by
  cases value : offsets key with
  | none => simp [Group.commit, value]
  | some next =>
    obtain ⟨_, commitValue⟩ := commitOffsets_eq_some forward.explicit (sent key next value)
    simpa [Group.commit, value] using
      forward.sent (due.sending forward.explicit) key next commitValue

theorem committed_le_step {next : Subscription} (forward : stream.Forward)
    (notNative : action ≠ .nativeCommit) (taken : step visible stream action = some next)
    (key : TopicPartition) : stream.group.committed key ≤ next.group.committed key := by
  cases step_cases taken with
  | assign | revoke | nativePoll | closed | emit | readAssignment => exact le_refl _
  | @otherCommit moved offset _ ahead =>
    by_cases same : key = moved
    · subst same
      simpa [Group.otherCommit] using ahead
    · simp [Group.otherCommit, same]
  | @decoded keep batch =>
    obtain ⟨_, _, result, _⟩ := stream.register_cases batch keep
    rw [result]
  | @frame frame =>
    rcases stream.receive_cases frame with
      ⟨_, _, result, _⟩ | ⟨_, _, _, _, _, _, _, result, _⟩ <;> rw [result]
  | @acknowledge filteredAcks commit =>
    obtain ⟨_, _, result, _⟩ := stream.settle_cases filteredAcks commit
    rw [result]
  | commit due => exact forward.le_commit due (fun _ _ sent => sent) key
  | commitFailed due =>
    exact forward.le_commit due (fun _ _ sent => (Option.ite_none_right_eq_some.mp sent).2) key
  | nativeCommit => exact absurd rfl notNative

/-- The steps of a session whose acknowledgements are fresh and whose native
client does not commit by itself. -/
def commitsFresh (stream : Subscription) : Action → Bool
  | .nativeCommit => false
  | action => stream.freshAcks action

theorem commitsFresh_eq_true :
    stream.commitsFresh action = true ↔
      stream.freshAcks action = true ∧ action ≠ .nativeCommit := by
  cases action <;> simp [commitsFresh]

/-- Along such a run, whatever other members commit in between, the committed
offset of a partition never goes back. -/
theorem committed_never_regresses (visible : TopicPartition → Int → Bool)
    (committed : TopicPartition → Int) (before after : List Action)
    (earlier later : Subscription)
    (alongBefore : Run.Along (step visible) (fun stream action => stream.commitsFresh action)
      (start false committed) before)
    (runBefore : Run.exec (step visible) (start false committed) before = some earlier)
    (alongAfter : Run.Along (step visible) (fun stream action => stream.commitsFresh action)
      earlier after)
    (runAfter : Run.exec (step visible) earlier after = some later) (key : TopicPartition) :
    earlier.group.committed key ≤ later.group.committed key := by
  have preserved : ∀ (stream : Subscription) (action : Action) (next : Subscription),
      stream.Coherent visible ∧ stream.Forward → stream.commitsFresh action = true →
      step visible stream action = some next → next.Coherent visible ∧ next.Forward := by
    rintro stream action next ⟨coherent, forward⟩ allowed taken
    obtain ⟨fresh, notNative⟩ := commitsFresh_eq_true.mp allowed
    exact ⟨coherent_step coherent taken, forward_step coherent forward fresh notNative taken⟩
  have reached : earlier.Coherent visible ∧ earlier.Forward :=
    Run.exec_preserves (fun stream => stream.Coherent visible ∧ stream.Forward) preserved
      ⟨coherent_start false committed, forward_start committed⟩ alongBefore runBefore
  have monotone := Run.exec_preserves
    (fun stream => (stream.Coherent visible ∧ stream.Forward) ∧
      earlier.group.committed key ≤ stream.group.committed key)
    (fun stream action next ⟨invariant, bound⟩ allowed taken =>
      ⟨preserved stream action next invariant allowed taken,
        bound.trans
          (committed_le_step invariant.2 (commitsFresh_eq_true.mp allowed).2 taken key)⟩)
    ⟨reached, le_refl _⟩ alongAfter runAfter
  exact monotone.2

/-- `orders` is delivered, acknowledged and committed, then another member takes
it over and commits 5. -/
def handedOver : List Action :=
  [.assign orders, .nativePoll [orders] fun _ => 1, .decoded fun _ => true, .emit, .acknowledge,
    .frame (.ack ⟨orders, 0⟩), .readAssignment, .commit, .revoke orders, .otherCommit orders 5]

/-- It comes back, and the client acknowledges what it got since then. -/
def handedBack : List Action :=
  [.assign orders, .nativePoll [orders] fun _ => 6, .decoded fun _ => true, .emit, .acknowledge,
    .frame (.ack ⟨orders, 5⟩), .readAssignment, .commit]

theorem committed_never_regresses_handed_back :
    ∃ earlier later,
      Run.exec (step fun _ _ => true) (start false fun _ => 0) handedOver = some earlier ∧
      Run.exec (step fun _ _ => true) earlier handedBack = some later ∧
      later.group.committed orders = 6 ∧
      earlier.group.committed orders ≤ later.group.committed orders :=
  ⟨_, _, rfl, rfl, rfl, committed_never_regresses (fun _ _ => true) (fun _ => 0)
    handedOver handedBack _ _ (by decide) rfl (by decide) rfl orders⟩

/-- Offset 5 is delivered and not yet acknowledged when another member takes
`orders` over and commits 20. The partition comes back, and the late
acknowledgement of 5 commits 6. -/
def staleAcknowledgement : List Action :=
  [.assign orders, .nativePoll [orders] fun _ => 11, .decoded fun _ => true, .emit, .emit, .emit,
    .emit, .emit, .emit, .acknowledge, .revoke orders, .otherCommit orders 20, .assign orders,
    .frame (.ack ⟨orders, 5⟩), .readAssignment]

theorem stale_acknowledgement_regresses :
    ∃ earlier later,
      Run.exec (step fun _ _ => true) (start false fun _ => 5) staleAcknowledgement =
        some earlier ∧
      Run.exec (step fun _ _ => true) earlier [.commit] = some later ∧
      earlier.group.committed orders = 20 ∧ later.group.committed orders = 6 :=
  ⟨_, _, rfl, rfl, rfl, rfl⟩

/-- The same without a late acknowledgement: the partition changes hands while the commit is on its
way. -/
example :
    (Run.exec (step fun _ _ => true) (start false fun _ => 5)
      [.assign orders, .nativePoll [orders] fun _ => 6, .decoded fun _ => true, .emit, .acknowledge,
        .frame (.ack ⟨orders, 5⟩), .readAssignment, .revoke orders, .otherCommit orders 20,
        .commit]).map (fun stream => stream.group.committed orders) = some 6 := by
  decide

end KrabkaGateway.Consume.Subscription
