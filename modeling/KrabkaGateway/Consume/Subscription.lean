import KrabkaGateway.Lib.Run
import KrabkaGateway.Consume.Group

/-!
# A subscription and its consumer group

`subscribe_inner` as a machine that moves from one suspension point to the
next, beside the native consumer and the group it belongs to. Assignment
changes and the native client's own commits come from the consumer's background
task, so they may fall between any two steps. `tokio::select` drops `session.poll` when a control
frame wins, also while the poll already decodes the records it got.

`emitted`, `acked` and `filtered` are history: the steps only write them, and
the properties of a run are stated with them.
-/

namespace KrabkaGateway.Consume

open Lib

inductive ConnectError where
  | invalidArgument (message : String)
  | resourceExhausted (message : String)
  | internal (message : String)
  /-- An error of the client's own frame stream, passed on. -/
  | frames
  deriving DecidableEq, Repr

/-- Where the loop of `subscribe_inner` is suspended. -/
inductive Phase where
  /-- In `tokio::select`, waiting for a frame or for the native poll. -/
  | select
  /-- In `tokio::select`; the native poll returned and the batch is decoded. -/
  | decoding (batch : List Coordinate)
  /-- At a `yield`, with the records still to emit, the records the filter
  removed, and the `commit` flag of the turn. -/
  | emitting (toEmit filteredAcks : List Coordinate) (commit : Bool)
  | committing
  /-- In `commit_acked`: the assignment is read, and the commit is not answered yet. -/
  | sending
  | closed (error : Option ConnectError)
  deriving DecidableEq, Repr

/-- The stream has ended. -/
def Phase.isClosed : Phase → Bool
  | .closed _ => true
  | _ => false

structure Subscription where
  autoCommit : Bool
  phase : Phase
  books : Books
  group : Group
  /-- The records the stream yielded, with the epoch of their partition. -/
  emitted : List (Coordinate × Nat)
  /-- The acknowledgements the client sent. -/
  acked : List Coordinate
  /-- The records the filter removed. -/
  filtered : List Coordinate

/-- A control frame after the first one, or the end of the frame stream. -/
inductive Frame where
  | ack (record : Coordinate)
  | other
  | failed
  | ended
  deriving DecidableEq, Repr

/-- What can happen next. -/
inductive Action where
  | assign (key : TopicPartition)
  | revoke (key : TopicPartition)
  /-- Another member commits a partition that is not assigned here. -/
  | otherCommit (key : TopicPartition) (offset : Int)
  /-- The native poll returns what is visible up to the next positions. -/
  | nativePoll (keys : List TopicPartition) (next : TopicPartition → Int)
  /-- The batch is decoded, filtered and registered. -/
  | decoded (keep : Coordinate → Bool)
  | pollFailed (message : String)
  | filterFailed (message : String)
  | frame (frame : Frame)
  | emit
  /-- Nothing is left to emit: the acknowledgement loop runs. -/
  | acknowledge
  /-- `commit_acked` reads the assignment and discards the partitions that are not in it. -/
  | readAssignment
  | commit
  /-- The commit fails; the broker may have applied part of it. -/
  | commitFailed (applied : TopicPartition → Bool) (message : String)
  /-- The native client commits its positions by itself. -/
  | nativeCommit
  /-- The client drops the response stream. -/
  | dropped

namespace Subscription

/-- A stream that has just subscribed. -/
def start (autoCommit : Bool) (committed : TopicPartition → Int) : Subscription where
  autoCommit := autoCommit
  phase := .select
  books := Books.new
  group := Group.join committed
  emitted := []
  acked := []
  filtered := []

/-- The tracker without the partitions that are not assigned. -/
def retained (stream : Subscription) : AckTracker :=
  stream.books.tracker.retain stream.group.assigned

/-- What a commit sends. The tracker stays as it is while a commit is on its way, so in explicit
mode this is what `commit_acked` has read, or would read now. -/
def commitOffsets (stream : Subscription) : TopicPartition → Option Int :=
  if stream.autoCommit then stream.group.positions
  else
    match stream.phase with
    | .sending => stream.books.tracker.ackedOffsets
    | _ => stream.retained.ackedOffsets

variable {stream : Subscription}

theorem commitOffsets_of_sending (explicit : stream.autoCommit = false)
    (sending : stream.phase = .sending) :
    stream.commitOffsets = stream.books.tracker.ackedOffsets := by
  simp [commitOffsets, explicit, sending]

/-- In explicit mode a commit sends the offset behind the frontier of a partition that is assigned
when the assignment is read. -/
theorem commitOffsets_eq_some (explicit : stream.autoCommit = false) {key : TopicPartition}
    {next : Int} (sent : stream.commitOffsets key = some next) :
    (stream.phase = .sending ∨ stream.group.assigned key = true) ∧
      (stream.books.tracker.entry key).commitValue = some next := by
  by_cases sending : stream.phase = .sending
  · rw [commitOffsets_of_sending explicit sending] at sent
    exact ⟨Or.inl sending, AckTracker.commitValue_of_ackedOffsets sent⟩
  · have retained_eq : stream.commitOffsets = stream.retained.ackedOffsets := by
      simp only [commitOffsets, explicit, Bool.false_eq_true, if_false]
    rw [retained_eq] at sent
    have value := AckTracker.commitValue_of_ackedOffsets sent
    rw [retained, AckTracker.entry_retain] at value
    split at value
    next held => exact ⟨Or.inr held, value⟩
    next => simp [PartitionAckState.commitValue] at value

/-- The turn of the loop for a control frame. -/
def receive (stream : Subscription) : Frame → Subscription
  | .ack record =>
    if stream.autoCommit then { stream with phase := .select }
    else
      let stream := { stream with acked := record :: stream.acked }
      match stream.books.validateAck record with
      | .repeated => { stream with phase := .select }
      | .invalid message => { stream with phase := .closed (some (.invalidArgument message)) }
      | .fresh =>
        match stream.books.acknowledge record with
        | (.ok (), books) => { stream with books := books, phase := .committing }
        | (.error error, books) =>
          { stream with
            books := books
            phase := .closed (some (.resourceExhausted error.display)) }
  | .other => { stream with phase := .select }
  | .failed => { stream with phase := .closed (some .frames) }
  | .ended => { stream with phase := .closed none }

/-- The turn of the loop for a decoded batch, up to the first `yield`. In
explicit mode every record of the batch is registered, the removed ones too. -/
def register (stream : Subscription) (batch : List Coordinate) (keep : Coordinate → Bool) :
    Subscription :=
  let toEmit := batch.filter keep
  let removed := batch.filter fun record => !keep record
  let stream := { stream with filtered := removed ++ stream.filtered }
  if stream.autoCommit then
    { stream with phase := .emitting toEmit [] (!batch.isEmpty) }
  else
    let books := stream.books.deliver toEmit
    match books.tracker.recordDeliveries batch with
    | (.ok (), tracker) =>
      { stream with
        books := { books with tracker := tracker }
        phase := .emitting toEmit removed false }
    | (.error error, tracker) =>
      { stream with
        books := { books with tracker := tracker }
        phase := .closed (some (.resourceExhausted error.display)) }

/-- The rest of the turn once every record is emitted. -/
def settle (stream : Subscription) (filteredAcks : List Coordinate) (commit : Bool) :
    Subscription :=
  if stream.autoCommit then
    { stream with phase := if commit then .committing else .select }
  else
    match stream.books.acknowledgeAll filteredAcks with
    | (.ok (), books) =>
      { stream with
        books := books
        phase := if filteredAcks.isEmpty then .select else .committing }
    | (.error error, books) =>
      { stream with
        books := books
        phase := .closed (some (.resourceExhausted error.display)) }

def readAssignment (stream : Subscription) : Subscription :=
  { stream with books := { stream.books with tracker := stream.retained }, phase := .sending }

/-- A commit is on its way: `commit` in auto mode, `commit_acked` in explicit mode. -/
def CommitDue (stream : Subscription) : Prop :=
  stream.phase = if stream.autoCommit then .committing else .sending

instance (stream : Subscription) : Decidable stream.CommitDue :=
  inferInstanceAs (Decidable (_ = _))

theorem CommitDue.sending (due : stream.CommitDue) (explicit : stream.autoCommit = false) :
    stream.phase = .sending := by
  simpa [CommitDue, explicit] using due

theorem CommitDue.phase (due : stream.CommitDue) :
    stream.phase = .committing ∨ stream.phase = .sending := by
  unfold CommitDue at due
  split at due
  · exact Or.inl due
  · exact Or.inr due

def commitDone (stream : Subscription) : Subscription :=
  { stream with
    group := stream.group.commit stream.commitOffsets
    books :=
      { stream.books with
        tracker :=
          if stream.autoCommit then stream.books.tracker
          else stream.books.tracker.recordCommit stream.commitOffsets }
    phase := .select }

def commitAborted (stream : Subscription) (applied : TopicPartition → Bool) (message : String) :
    Subscription :=
  { stream with
    group := stream.group.commit fun key =>
      if applied key then stream.commitOffsets key else none
    phase := .closed (some (.internal message)) }

theorem commitDone_tracker (explicit : stream.autoCommit = false)
    (sending : stream.phase = .sending) :
    stream.commitDone.books.tracker =
      stream.books.tracker.recordCommit stream.books.tracker.ackedOffsets := by
  simp [commitDone, explicit, commitOffsets_of_sending explicit sending]

def close (stream : Subscription) (error : Option ConnectError) : Subscription :=
  { stream with phase := .closed error }

/-- One `yield`. -/
def emitNext (stream : Subscription) (record : Coordinate) (rest filteredAcks : List Coordinate)
    (commit : Bool) : Subscription :=
  { stream with
    emitted := (record, stream.group.epoch record.key) :: stream.emitted
    phase := .emitting rest filteredAcks commit }

variable (visible : TopicPartition → Int → Bool)

def nativePoll (stream : Subscription) (keys : List TopicPartition)
    (next : TopicPartition → Int) : Subscription :=
  { stream with
    group := stream.group.poll visible keys next
    phase := .decoding (stream.group.batch visible keys next) }

def step (stream : Subscription) : Action → Option Subscription
  | .assign key =>
    if stream.group.assigned key = false ∧ 0 ≤ key.2 then
      some { stream with group := stream.group.assign key }
    else none
  | .revoke key => some { stream with group := stream.group.revoke key }
  | .otherCommit key offset =>
    if stream.group.assigned key = false ∧ stream.group.committed key ≤ offset then
      some { stream with group := stream.group.otherCommit key offset }
    else none
  | .nativePoll keys next =>
    if stream.phase = .select ∧ keys.Nodup ∧
        ∀ key ∈ keys,
          stream.group.assigned key = true ∧ stream.group.position key ≤ next key then
      some (stream.nativePoll visible keys next)
    else none
  | .decoded keep =>
    match stream.phase with
    | .decoding batch => some (stream.register batch keep)
    | _ => none
  | .pollFailed message =>
    match stream.phase with
    | .select | .decoding _ => some (stream.close (some (.internal message)))
    | _ => none
  | .filterFailed message =>
    match stream.phase with
    | .decoding _ => some (stream.close (some (.invalidArgument message)))
    | _ => none
  | .frame frame =>
    match stream.phase with
    | .select | .decoding _ => some (stream.receive frame)
    | _ => none
  | .emit =>
    match stream.phase with
    | .emitting (record :: rest) filteredAcks commit =>
      some (stream.emitNext record rest filteredAcks commit)
    | _ => none
  | .acknowledge =>
    match stream.phase with
    | .emitting [] filteredAcks commit => some (stream.settle filteredAcks commit)
    | _ => none
  | .readAssignment =>
    if stream.phase = .committing ∧ stream.autoCommit = false then some stream.readAssignment
    else none
  | .commit => if stream.CommitDue then some stream.commitDone else none
  | .commitFailed applied message =>
    if stream.CommitDue then some (stream.commitAborted applied message) else none
  | .nativeCommit => some { stream with group := stream.group.commit stream.group.positions }
  | .dropped =>
    match stream.phase with
    | .closed _ => none
    | _ => some (stream.close none)

inductive Step (stream : Subscription) : Action → Subscription → Prop where
  | assign {key} (free : stream.group.assigned key = false) (valid : 0 ≤ key.2) :
      Step stream (.assign key) { stream with group := stream.group.assign key }
  | revoke {key} : Step stream (.revoke key) { stream with group := stream.group.revoke key }
  | otherCommit {key offset} (free : stream.group.assigned key = false)
      (forward : stream.group.committed key ≤ offset) :
      Step stream (.otherCommit key offset)
        { stream with group := stream.group.otherCommit key offset }
  | nativePoll {keys next} (phase : stream.phase = .select) (distinct : keys.Nodup)
      (held : ∀ key ∈ keys,
        stream.group.assigned key = true ∧ stream.group.position key ≤ next key) :
      Step stream (.nativePoll keys next) (stream.nativePoll visible keys next)
  | decoded {keep batch} (phase : stream.phase = .decoding batch) :
      Step stream (.decoded keep) (stream.register batch keep)
  | closed {action error} : Step stream action (stream.close error)
  | frame {frame} (phase : stream.phase = .select ∨ ∃ batch, stream.phase = .decoding batch) :
      Step stream (.frame frame) (stream.receive frame)
  | emit {record rest filteredAcks commit}
      (phase : stream.phase = .emitting (record :: rest) filteredAcks commit) :
      Step stream .emit (stream.emitNext record rest filteredAcks commit)
  | acknowledge {filteredAcks commit} (phase : stream.phase = .emitting [] filteredAcks commit) :
      Step stream .acknowledge (stream.settle filteredAcks commit)
  | readAssignment (phase : stream.phase = .committing) (explicit : stream.autoCommit = false) :
      Step stream .readAssignment stream.readAssignment
  | commit (due : stream.CommitDue) : Step stream .commit stream.commitDone
  | commitFailed {applied message} (due : stream.CommitDue) :
      Step stream (.commitFailed applied message) (stream.commitAborted applied message)
  | nativeCommit :
      Step stream .nativeCommit
        { stream with group := stream.group.commit stream.group.positions }

variable {visible}

theorem step_cases {next : Subscription} {action : Action}
    (taken : step visible stream action = some next) : Step visible stream action next := by
  cases action <;> simp only [step] at taken
  case revoke => cases taken; exact .revoke
  case nativeCommit => cases taken; exact .nativeCommit
  case assign =>
    split at taken
    next enabled => cases taken; exact .assign enabled.1 enabled.2
    next => cases taken
  case otherCommit =>
    split at taken
    next enabled => cases taken; exact .otherCommit enabled.1 enabled.2
    next => cases taken
  case nativePoll =>
    split at taken
    next enabled => cases taken; exact .nativePoll enabled.1 enabled.2.1 enabled.2.2
    next => cases taken
  case decoded => split at taken <;> cases taken; exact .decoded ‹_›
  case pollFailed => split at taken <;> cases taken <;> exact .closed
  case filterFailed => split at taken <;> cases taken; exact .closed
  case frame =>
    split at taken
    next phase => cases taken; exact .frame (Or.inl phase)
    next batch phase => cases taken; exact .frame (Or.inr ⟨batch, phase⟩)
    next => cases taken
  case emit => split at taken <;> cases taken; exact .emit ‹_›
  case acknowledge => split at taken <;> cases taken; exact .acknowledge ‹_›
  case readAssignment =>
    split at taken
    next enabled => cases taken; exact .readAssignment enabled.1 enabled.2
    next => cases taken
  case commit => split at taken <;> cases taken; exact .commit ‹_›
  case commitFailed => split at taken <;> cases taken; exact .commitFailed ‹_›
  case dropped => split at taken <;> cases taken; exact .closed

theorem receive_cases (stream : Subscription) (frame : Frame) :
    (∃ phase acked, stream.receive frame = { stream with phase := phase, acked := acked } ∧
      (phase = .select ∨ ∃ error, phase = .closed error) ∧ stream.acked ⊆ acked) ∨
    ∃ record books phase, frame = .ack record ∧ stream.autoCommit = false ∧
      stream.books.validateAck record = .fresh ∧
      books.tracker = (stream.books.tracker.recordAck record).2 ∧
      stream.receive frame =
        { stream with acked := record :: stream.acked, books := books, phase := phase } ∧
      (phase = .committing ∨ ∃ error, phase = .closed error) := by
  cases frame with
  | ack record =>
    simp only [receive]
    split
    next => exact Or.inl ⟨.select, _, rfl, Or.inl rfl, List.Subset.refl _⟩
    next explicit =>
      split
      next => exact Or.inl ⟨.select, _, rfl, Or.inl rfl, List.subset_cons_self _ _⟩
      next => exact Or.inl ⟨_, _, rfl, Or.inr ⟨_, rfl⟩, List.subset_cons_self _ _⟩
      next fresh =>
        have tracker_eq := stream.books.acknowledge_tracker record
        split
        next books result =>
          rw [result] at tracker_eq
          exact Or.inr ⟨record, books, .committing, rfl, by simpa using explicit, fresh,
            tracker_eq, rfl, Or.inl rfl⟩
        next error books result =>
          rw [result] at tracker_eq
          exact Or.inr ⟨record, books, _, rfl, by simpa using explicit, fresh,
            tracker_eq, rfl, Or.inr ⟨_, rfl⟩⟩
  | other => exact Or.inl ⟨.select, _, rfl, Or.inl rfl, List.Subset.refl _⟩
  | failed | ended => exact Or.inl ⟨_, _, rfl, Or.inr ⟨_, rfl⟩, List.Subset.refl _⟩

/-- What a decoded batch does. In explicit mode the stream goes on only when
the whole batch was registered. -/
theorem register_cases (stream : Subscription) (batch : List Coordinate)
    (keep : Coordinate → Bool) :
    ∃ books phase, stream.register batch keep =
        { stream with
          filtered := (batch.filter fun record => !keep record) ++ stream.filtered
          books := books
          phase := phase } ∧
      (stream.autoCommit = true ∧ books = stream.books ∧
          phase = .emitting (batch.filter keep) [] (!batch.isEmpty) ∨
        stream.autoCommit = false ∧
          books.tracker = (stream.books.tracker.recordDeliveries batch).2 ∧
          ((stream.books.tracker.recordDeliveries batch).1 = .ok () ∧
              phase = .emitting (batch.filter keep)
                (batch.filter fun record => !keep record) false ∨
            ∃ error, phase = .closed error)) := by
  unfold register
  dsimp only
  split
  next auto => exact ⟨_, _, rfl, Or.inl ⟨auto, rfl, rfl⟩⟩
  next explicit =>
    have isExplicit : stream.autoCommit = false := by simpa using explicit
    rw [Books.deliver_tracker]
    split
    next tracker result =>
      exact ⟨_, _, rfl, Or.inr ⟨isExplicit, by simp [result], Or.inl ⟨by simp [result], rfl⟩⟩⟩
    next error tracker result =>
      exact ⟨_, _, rfl, Or.inr ⟨isExplicit, by simp [result], Or.inr ⟨_, rfl⟩⟩⟩

/-- What the end of a turn does: in explicit mode it acknowledges the records
the filter removed. -/
theorem settle_cases (stream : Subscription) (filteredAcks : List Coordinate) (commit : Bool) :
    ∃ books phase,
      stream.settle filteredAcks commit = { stream with books := books, phase := phase } ∧
      (phase = .select ∨ phase = .committing ∨ ∃ error, phase = .closed error) ∧
      (stream.autoCommit = true ∧ books = stream.books ∨
        stream.autoCommit = false ∧
          books.tracker = (stream.books.acknowledgeAll filteredAcks).2.tracker ∧
          (phase = .select → books = stream.books)) := by
  unfold settle
  split
  next auto => exact ⟨_, _, rfl, by cases commit <;> simp, Or.inl ⟨auto, rfl⟩⟩
  next explicit =>
    have isExplicit : stream.autoCommit = false := by simpa using explicit
    split
    next books result =>
      refine ⟨_, _, rfl, ?_, Or.inr ⟨isExplicit, by simp [result], ?_⟩⟩
      · cases filteredAcks <;> simp
      · cases filteredAcks with
        | nil =>
          cases result
          simp
        | cons => simp
    next error books result =>
      exact ⟨_, _, rfl, Or.inr (Or.inr ⟨_, rfl⟩), Or.inr ⟨isExplicit, by simp [result], by simp⟩⟩

end Subscription

end KrabkaGateway.Consume
