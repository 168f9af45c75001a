import KrabkaGateway.Consume.Subscription

/-!
# From the native poll to the client

What every run of a subscription keeps about the records between the native
poll and the client, and what a commit covers. `session.poll` awaits the codec
after the native poll has moved the position. When a control frame wins the
`select` in between, the batch is dropped with the future.
-/

namespace KrabkaGateway.Consume.Subscription

open Lib

variable {visible : TopicPartition → Int → Bool}

/-- What every run keeps, with no condition on its steps. -/
structure Coherent (visible : TopicPartition → Int → Bool) (stream : Subscription) : Prop where
  placed : stream.group.Placed visible
  decoding : ∀ batch, stream.phase = .decoding batch →
    AckTracker.Ascending batch ∧ ∀ record ∈ batch, Readable visible record
  emitting : ∀ toEmit filteredAcks commit, stream.phase = .emitting toEmit filteredAcks commit →
    (∀ record ∈ toEmit, Readable visible record) ∧
      (∀ record ∈ filteredAcks, Readable visible record ∧ record ∈ stream.filtered)
  emitted : ∀ entry ∈ stream.emitted,
    Readable visible entry.1 ∧ entry.2 ≤ stream.group.epoch entry.1.key

theorem coherent_start (autoCommit : Bool) (committed : TopicPartition → Int) :
    Coherent visible (start autoCommit committed) where
  placed := Group.placed_join committed
  decoding := by simp [start]
  emitting := by simp [start]
  emitted := by simp [start]

/-- Phases in which the stream holds no record. -/
def Idle (phase : Phase) : Prop :=
  phase = .select ∨ phase = .committing ∨ ∃ error, phase = .closed error

variable {stream : Subscription}

/-- A step to an idle phase may change the books and the committed offsets. -/
theorem Coherent.idle (coherent : stream.Coherent visible) {phase : Phase}
    (idle : phase = .sending ∨ Idle phase) (books : Books) (acked : List Coordinate)
    (committed : TopicPartition → Int) :
    Coherent visible
      { stream with
        phase := phase
        books := books
        acked := acked
        group := { stream.group with committed := committed } } where
  placed := coherent.placed.withCommitted committed
  decoding := by rcases idle with rfl | rfl | rfl | ⟨_, rfl⟩ <;> simp
  emitting := by rcases idle with rfl | rfl | rfl | ⟨_, rfl⟩ <;> simp
  emitted := coherent.emitted

theorem Coherent.withCommitted (coherent : stream.Coherent visible)
    (committed : TopicPartition → Int) :
    Coherent visible { stream with group := { stream.group with committed := committed } } :=
  ⟨coherent.placed.withCommitted committed, coherent.decoding, coherent.emitting,
    coherent.emitted⟩

theorem Coherent.assign (coherent : stream.Coherent visible) {key : TopicPartition}
    (valid : 0 ≤ key.2) :
    Coherent visible { stream with group := stream.group.assign key } where
  placed := coherent.placed.assign valid
  decoding := coherent.decoding
  emitting := coherent.emitting
  emitted := by
    intro entry membership
    obtain ⟨readable, bound⟩ := coherent.emitted entry membership
    refine ⟨readable, ?_⟩
    by_cases same : entry.1.key = key
    · subst same
      simpa [Group.assign] using Nat.le_succ_of_le bound
    · simpa [Group.assign, same] using bound

theorem Coherent.nativePoll (coherent : stream.Coherent visible) {keys : List TopicPartition}
    {next : TopicPartition → Int} (distinct : keys.Nodup) (held : ∀ key ∈ keys,
      stream.group.assigned key = true ∧ stream.group.position key ≤ next key) :
    Coherent visible (stream.nativePoll visible keys next) where
  placed := coherent.placed.poll held
  decoding := by
    intro batch phase
    cases phase
    refine ⟨Group.batch_ascending distinct, ?_⟩
    intro record inBatch
    obtain ⟨listed, _, _, natural, isVisible⟩ := Group.mem_batch.mp inBatch
    have partition := coherent.placed.partition record.key (held record.key listed).1
    exact ⟨⟨partition, natural⟩, isVisible⟩
  emitting := by simp [Subscription.nativePoll]
  emitted := coherent.emitted

theorem Coherent.register (coherent : stream.Coherent visible) {batch : List Coordinate}
    (phase : stream.phase = .decoding batch) (keep : Coordinate → Bool) :
    Coherent visible (stream.register batch keep) := by
  obtain ⟨_, readable⟩ := coherent.decoding batch phase
  obtain ⟨books, after, result, cases⟩ := stream.register_cases batch keep
  rw [result]
  refine ⟨coherent.placed, ?_, ?_, coherent.emitted⟩
  · rcases cases with ⟨_, _, rfl⟩ | ⟨_, _, ⟨_, rfl⟩ | ⟨_, rfl⟩⟩ <;> simp
  · intro toEmit filteredAcks commit emitting
    have kept : ∀ record ∈ batch.filter keep, Readable visible record :=
      fun record inside => readable record (List.mem_of_mem_filter inside)
    rcases cases with ⟨_, _, rfl⟩ | ⟨_, _, ⟨_, rfl⟩ | ⟨_, rfl⟩⟩
    · cases emitting
      exact ⟨kept, by simp⟩
    · cases emitting
      refine ⟨kept, ?_⟩
      intro record inside
      exact ⟨readable record (List.mem_of_mem_filter inside), List.mem_append_left _ inside⟩
    · cases emitting

theorem Coherent.emitNext (coherent : stream.Coherent visible) {record : Coordinate}
    {rest filteredAcks : List Coordinate} {commit : Bool}
    (phase : stream.phase = .emitting (record :: rest) filteredAcks commit) :
    Coherent visible (stream.emitNext record rest filteredAcks commit) := by
  obtain ⟨toEmit, acks⟩ := coherent.emitting _ _ _ phase
  refine ⟨coherent.placed, by simp [Subscription.emitNext], ?_, ?_⟩
  · intro _ _ _ emitting
    cases emitting
    exact ⟨fun other inside => toEmit other (List.mem_cons_of_mem _ inside), acks⟩
  · intro entry membership
    rcases List.mem_cons.mp membership with rfl | before
    · exact ⟨toEmit record List.mem_cons_self, Nat.le_refl _⟩
    · exact coherent.emitted entry before

variable {action : Action}

theorem coherent_step {next : Subscription} (coherent : stream.Coherent visible)
    (taken : step visible stream action = some next) : next.Coherent visible := by
  cases step_cases taken with
  | assign _ valid => exact coherent.assign valid
  | revoke =>
    exact ⟨coherent.placed.revoke _, coherent.decoding, coherent.emitting, coherent.emitted⟩
  | otherCommit | nativeCommit => exact coherent.withCommitted _
  | nativePoll _ distinct held => exact coherent.nativePoll distinct held
  | decoded phase => exact coherent.register phase _
  | closed => exact coherent.idle (.inr (.inr (.inr ⟨_, rfl⟩))) _ _ stream.group.committed
  | @frame frame =>
    rcases stream.receive_cases frame with
      ⟨phase, acked, result, idle, _⟩ | ⟨record, books, phase, _, _, _, _, result, idle⟩
    · rw [result]
      exact coherent.idle (.inr (idle.imp_right .inr)) _ _ stream.group.committed
    · rw [result]
      exact coherent.idle (.inr (.inr idle)) _ _ stream.group.committed
  | emit phase => exact coherent.emitNext phase
  | @acknowledge filteredAcks commit =>
    obtain ⟨books, phase, result, idle, _⟩ := stream.settle_cases filteredAcks commit
    rw [result]
    exact coherent.idle (.inr idle) _ _ stream.group.committed
  | readAssignment =>
    exact coherent.idle (.inl rfl) stream.readAssignment.books _ stream.group.committed
  | commit => exact coherent.idle (.inr (.inl rfl)) stream.commitDone.books _ _
  | commitFailed => exact coherent.idle (.inr (.inr (.inr ⟨_, rfl⟩))) _ _ _

/-- The records between the native poll and the client. -/
def inFlight (stream : Subscription) : List Coordinate :=
  match stream.phase with
  | .decoding batch => batch
  | .emitting toEmit _ _ => toEmit
  | _ => []

/-- The record reached the client, or the filter removed it. -/
def Handled (stream : Subscription) (record : Coordinate) : Prop :=
  (∃ epoch, (record, epoch) ∈ stream.emitted) ∨ record ∈ stream.filtered

def endsStream (stream : Subscription) : Frame → Bool
  | .ack record =>
    !stream.autoCommit &&
      match stream.books.validateAck record with
      | .invalid _ => true
      | _ => false
  | .other => false
  | .failed | .ended => true

theorem receive_closed {frame : Frame} (ends : stream.endsStream frame = true) :
    (stream.receive frame).phase.isClosed = true := by
  cases frame with
  | ack record =>
    simp only [endsStream, Bool.and_eq_true, Bool.not_eq_true'] at ends
    obtain ⟨explicit, rejected⟩ := ends
    split at rejected
    next message check => simp [receive, explicit, check, Phase.isClosed]
    next => cases rejected
  | other => simp [endsStream] at ends
  | failed | ended => rfl

/-- The step handles no control frame while a polled batch is decoded, unless
the frame ends the stream. -/
def keepsBatch (stream : Subscription) : Action → Bool
  | .frame frame =>
    match stream.phase with
    | .decoding batch => batch.isEmpty || stream.endsStream frame
    | _ => true
  | _ => true

/-- Every record the native poll returned is handled or on its way, unless the
stream has ended. -/
def NoneLost (stream : Subscription) : Prop :=
  stream.phase.isClosed = true ∨
    ∀ entry ∈ stream.group.polled, stream.Handled entry.1 ∨ entry.1 ∈ stream.inFlight

/-- Nothing is lost by a step that holds no record in flight before it and
leaves the histories as they are. -/
theorem NoneLost.of_idle {next : Subscription} (noneLost : stream.NoneLost)
    (running : stream.phase.isClosed = false) (nothing : stream.inFlight = [])
    (polled : next.group.polled = stream.group.polled) (emitted : next.emitted = stream.emitted)
    (filtered : next.filtered = stream.filtered) : next.NoneLost := by
  right
  intro entry membership
  rcases noneLost with closed | complete
  · simp [running] at closed
  · rcases complete entry (polled ▸ membership) with handled | inside
    · exact Or.inl (by simpa [Handled, emitted, filtered] using handled)
    · simp [nothing] at inside

theorem noneLost_step {next : Subscription} (noneLost : stream.NoneLost)
    (keeps : stream.keepsBatch action = true) (taken : step visible stream action = some next) :
    next.NoneLost := by
  cases step_cases taken with
  | assign | revoke | otherCommit | nativeCommit => exact noneLost
  | closed | commitFailed => exact Or.inl rfl
  | @nativePoll keys next phase =>
    rcases noneLost with closed | complete
    · simp [phase, Phase.isClosed] at closed
    · right
      intro entry membership
      rcases List.mem_append.mp membership with new | old
      · obtain ⟨record, inBatch, rfl⟩ := List.mem_map.mp new
        exact Or.inr inBatch
      · rcases complete entry old with handled | inside
        · exact Or.inl handled
        · simp [inFlight, phase] at inside
  | @decoded keep batch phase =>
    obtain ⟨books, after, result, cases⟩ := stream.register_cases batch keep
    rw [result]
    rcases noneLost with closed | complete
    · simp [phase, Phase.isClosed] at closed
    · by_cases ended : ∃ error, after = .closed error
      · obtain ⟨_, rfl⟩ := ended
        exact Or.inl rfl
      · right
        intro entry membership
        have emitting : ∃ acks commit, after = .emitting (batch.filter keep) acks commit := by
          rcases cases with ⟨_, _, rfl⟩ | ⟨_, _, ⟨_, rfl⟩ | closed⟩
          · exact ⟨_, _, rfl⟩
          · exact ⟨_, _, rfl⟩
          · exact absurd closed ended
        obtain ⟨acks, commit, rfl⟩ := emitting
        rcases complete entry membership with handled | inside
        · refine Or.inl (handled.imp_right fun before => List.mem_append_right _ before)
        · simp only [inFlight, phase] at inside
          cases kept : keep entry.1 with
          | true => exact Or.inr (List.mem_filter.mpr ⟨inside, kept⟩)
          | false =>
            exact Or.inl (Or.inr (List.mem_append_left _
              (List.mem_filter.mpr ⟨inside, by simp [kept]⟩)))
  | @frame frame phase =>
    by_cases ends : stream.endsStream frame = true
    · exact Or.inl (receive_closed ends)
    · have nothing : stream.inFlight = [] := by
        rcases phase with idle | ⟨batch, decoding⟩
        · simp [inFlight, idle]
        · simpa [keepsBatch, inFlight, decoding, ends] using keeps
      have running : stream.phase.isClosed = false := by
        rcases phase with idle | ⟨batch, decoding⟩ <;> simp_all [Phase.isClosed]
      rcases stream.receive_cases frame with
        ⟨_, _, result, _⟩ | ⟨_, _, _, _, _, _, _, result, _⟩
      · exact noneLost.of_idle running nothing (by rw [result]) (by rw [result]) (by rw [result])
      · exact noneLost.of_idle running nothing (by rw [result]) (by rw [result]) (by rw [result])
  | @emit record rest filteredAcks commit phase =>
    rcases noneLost with closed | complete
    · simp [phase, Phase.isClosed] at closed
    · right
      intro entry membership
      rcases complete entry membership with (⟨epoch, before⟩ | before) | inside
      · exact Or.inl (Or.inl ⟨epoch, List.mem_cons_of_mem _ before⟩)
      · exact Or.inl (Or.inr before)
      · simp only [inFlight, phase] at inside
        rcases List.mem_cons.mp inside with same | later
        · rw [same]
          exact Or.inl (Or.inl ⟨_, List.mem_cons_self⟩)
        · exact Or.inr later
  | @acknowledge filteredAcks commit phase =>
    obtain ⟨books, after, result, _⟩ := stream.settle_cases filteredAcks commit
    exact noneLost.of_idle (by simp [phase, Phase.isClosed]) (by simp [inFlight, phase])
      (by rw [result]) (by rw [result]) (by rw [result])
  | readAssignment phase =>
    exact noneLost.of_idle (by simp [phase, Phase.isClosed]) (by simp [inFlight, phase]) rfl rfl rfl
  | commit due =>
    rcases due.phase with phase | phase
    · exact noneLost.of_idle (by simp [phase, Phase.isClosed])
        (by simp [inFlight, phase]) rfl rfl rfl
    · exact noneLost.of_idle (by simp [phase, Phase.isClosed])
        (by simp [inFlight, phase]) rfl rfl rfl

def CommitsHandled (stream : Subscription) : Prop :=
  ∀ key next, stream.commitOffsets key = some next →
    ∀ offset epoch, (⟨key, offset⟩, epoch) ∈ stream.group.polled → offset < next →
      stream.Handled ⟨key, offset⟩

/-- In both commit modes, in a run in which no control frame interrupts the
decoding of a polled record, every commit covers only handled records. -/
theorem commit_covers_handled (visible : TopicPartition → Int → Bool) (autoCommit : Bool)
    (committed : TopicPartition → Int) (actions : List Action) (stream : Subscription)
    (along : Run.Along (step visible) (fun stream action => stream.keepsBatch action)
      (start autoCommit committed) actions)
    (run : Run.exec (step visible) (start autoCommit committed) actions = some stream)
    (committing : stream.phase = .committing ∨ stream.phase = .sending) :
    stream.CommitsHandled := by
  have noneLost : stream.NoneLost :=
    Run.exec_preserves NoneLost
      (fun _ _ _ noneLost keeps taken => noneLost_step noneLost keeps taken)
      (Or.inr (by simp [start, Group.join])) along run
  intro key next _ offset epoch polled _
  rcases noneLost with closed | complete
  · rcases committing with phase | phase <;> simp [phase, Phase.isClosed] at closed
  · rcases complete _ polled with handled | inside
    · exact handled
    · rcases committing with phase | phase <;> simp [inFlight, phase] at inside

/-- A partition for the examples. -/
def orders : TopicPartition := ("orders", 0)

/-- Two records are delivered, the partition is revoked and assigned back, both records are
delivered again and the first one is acknowledged. -/
def acknowledgedAfterReturn : List Action :=
  [.assign orders, .nativePoll [orders] fun _ => 2, .decoded fun _ => true, .emit, .emit,
    .acknowledge, .revoke orders, .assign orders, .nativePoll [orders] fun _ => 2,
    .decoded fun _ => true, .emit, .emit, .acknowledge, .frame (.ack ⟨orders, 0⟩)]

/-- One record is polled, decoded, emitted and committed, with a control frame between two
polls. -/
def undisturbed : List Action :=
  [.assign orders, .frame .other, .nativePoll [orders] fun _ => 1, .decoded fun _ => true, .emit,
    .acknowledge]

theorem commit_covers_handled_undisturbed :
    ∃ stream, Run.exec (step fun _ _ => true) (start true fun _ => 0) undisturbed = some stream ∧
      stream.commitOffsets orders = some 1 ∧ stream.CommitsHandled := by
  exact ⟨_, rfl, rfl, commit_covers_handled (fun _ _ => true) true (fun _ => 0) undisturbed _
    (by decide) rfl (.inl rfl)⟩

/-- The control frame falls between the native poll and the end of its
decoding. The dropped record is never delivered, and the next record's commit
covers it. -/
def interrupted : List Action :=
  [.assign orders, .nativePoll [orders] fun _ => 1, .frame .other,
    .nativePoll [orders] fun _ => 2, .decoded fun _ => true, .emit, .acknowledge]

theorem interrupted_decode_committed :
    (∃ stream, Run.exec (step fun _ _ => true) (start true fun _ => 0) interrupted = some stream ∧
      stream.phase = .committing ∧ ¬ stream.CommitsHandled) ∧
    (∃ stream, Run.exec (step fun _ _ => true) (start false fun _ => 0)
        (interrupted ++ [.frame (.ack ⟨orders, 1⟩)]) = some stream ∧
      stream.phase = .committing ∧ ¬ stream.CommitsHandled) := by
  have violated : ∀ stream : Subscription, stream.commitOffsets orders = some 2 →
      stream.group.polled = [(⟨orders, 1⟩, 1), (⟨orders, 0⟩, 1)] →
      stream.emitted = [(⟨orders, 1⟩, 1)] → stream.filtered = [] → ¬ stream.CommitsHandled := by
    intro stream sent polled emitted filtered handled
    have lost := handled orders 2 sent 0 1 (by simp [polled]) (by decide)
    simp [Handled, emitted, filtered] at lost
  exact ⟨⟨_, rfl, rfl, violated _ rfl rfl rfl rfl⟩, ⟨_, rfl, rfl, violated _ rfl rfl rfl rfl⟩⟩

end KrabkaGateway.Consume.Subscription
