import KrabkaGateway.Consume.Delivery

/-!
# What an acknowledgement-driven commit covers

`commit_acked` commits one past the frontier of a partition. The frontier
stands for acknowledged records only while every record that goes to the
client is registered above it. A tracker that was dropped and seeded again by
a late acknowledgement breaks this: the redelivered records below the seed are
ignored by `record_delivery`.
-/

namespace KrabkaGateway.Consume.Subscription

open Lib

variable {visible : TopicPartition → Int → Bool}

/-- The client acknowledged the record, or the filter removed it. -/
def Done (stream : Subscription) (record : Coordinate) : Prop :=
  record ∈ stream.acked ∨ record ∈ stream.filtered

instance (stream : Subscription) (record : Coordinate) : Decidable (stream.Done record) :=
  inferInstanceAs (Decidable (_ ∨ _))

/-- The step registers no record for the client at or below the frontier of its
partition, unless the record was acknowledged or filtered before. -/
def registersAbove (stream : Subscription) : Action → Bool
  | .decoded keep =>
    match stream.phase with
    | .decoding batch =>
      batch.all fun record =>
        !keep record || !(stream.books.tracker.entry record.key).reached record.offset ||
          stream.Done record
    | _ => true
  | _ => true

/-- The partition is assigned, or it was when the commit that is on its way read
the assignment. -/
def Watched (stream : Subscription) (key : TopicPartition) : Prop :=
  stream.group.assigned key = true ∨
    stream.phase = .sending ∧ (stream.books.tracker key).isSome = true

/-- What an explicit-mode stream keeps: every record it delivered since the
partition was last assigned is still waited for, or done and passed. -/
structure Tracks (stream : Subscription) : Prop where
  explicit : stream.autoCommit = false
  sound : stream.books.tracker.Sound stream.Done
  emitted : ∀ record, stream.Watched record.key →
    (record, stream.group.epoch record.key) ∈ stream.emitted →
      stream.books.tracker.Accounted stream.Done record
  emitting : ∀ toEmit filteredAcks commit, stream.phase = .emitting toEmit filteredAcks commit →
    ∀ record ∈ toEmit, stream.books.tracker.Accounted stream.Done record

theorem tracks_start (committed : TopicPartition → Int) : Tracks (start false committed) where
  explicit := rfl
  sound := ⟨by simp [start, Books.new], by simp [start, Books.new]⟩
  emitted := by simp [start]
  emitting := by simp [start]

variable {stream : Subscription}

theorem Watched.assigned {key : TopicPartition} (watched : stream.Watched key)
    (notSending : stream.phase ≠ .sending) : stream.group.assigned key = true :=
  watched.resolve_right fun sending => notSending sending.1

theorem watched_of_commitOffsets (explicit : stream.autoCommit = false) {key : TopicPartition}
    {next : Int} (sent : stream.commitOffsets key = some next) : stream.Watched key := by
  obtain ⟨sending | held, value⟩ := commitOffsets_eq_some explicit sent
  · refine Or.inr ⟨sending, ?_⟩
    cases found : stream.books.tracker key with
    | none => simp [AckTracker.entry, found, PartitionAckState.commitValue] at value
    | some state => rfl
  · exact Or.inl held

theorem Tracks.assign (tracks : stream.Tracks) (coherent : stream.Coherent visible)
    (key : TopicPartition) :
    Tracks { stream with group := stream.group.assign key } where
  explicit := tracks.explicit
  sound := tracks.sound
  emitted := by
    intro record held membership
    by_cases same : record.key = key
    · -- Nothing was delivered in the new epoch.
      have bound := (coherent.emitted _ membership).2
      simp only [Group.assign, same, set_self] at bound
      omega
    · simp only [Watched, Group.assign, set_ne _ _ same] at held membership
      exact tracks.emitted record held membership
  emitting := tracks.emitting

theorem Tracks.revoke (tracks : stream.Tracks) (key : TopicPartition) :
    Tracks { stream with group := stream.group.revoke key } where
  explicit := tracks.explicit
  sound := tracks.sound
  emitted := by
    intro record held membership
    exact tracks.emitted record (held.imp_left Group.held_of_revoke) membership
  emitting := tracks.emitting

variable {phase : Phase}

/-- A step that only moves to a phase without records, with more acknowledgements. -/
theorem Tracks.idle (tracks : stream.Tracks) (idle : Idle phase) {acked : List Coordinate}
    (grows : stream.acked ⊆ acked) : Tracks { stream with phase := phase, acked := acked } := by
  have weaker : ∀ record, stream.Done record →
      Done { stream with phase := phase, acked := acked } record :=
    fun record => Or.imp_left fun before => grows before
  refine ⟨tracks.explicit, tracks.sound.mono weaker, ?_, ?_⟩
  · intro record held membership
    have assigned := held.assigned (by rcases idle with rfl | rfl | ⟨_, rfl⟩ <;> simp)
    exact (tracks.emitted record (.inl assigned) membership).mono weaker
  · rcases idle with rfl | rfl | ⟨_, rfl⟩ <;> simp

/-- What decoding does in explicit mode: what was accounted for stays so, and each record of a batch
that is accepted waits, unless the frontier had reached it before. -/
theorem registration (explicit : stream.autoCommit = false)
    (sound : stream.books.tracker.Sound stream.Done) (coherent : stream.Coherent visible)
    {batch : List Coordinate} (phase : stream.phase = .decoding batch) (keep : Coordinate → Bool) :
    ∃ books after, stream.register batch keep =
        { stream with
          filtered := (batch.filter fun record => !keep record) ++ stream.filtered
          books := books
          phase := after } ∧
      books.tracker = (stream.books.tracker.recordDeliveries batch).2 ∧
      books.tracker.Sound (stream.register batch keep).Done ∧
      (∀ record, stream.books.tracker.Accounted stream.Done record →
        books.tracker.Accounted (stream.register batch keep).Done record) ∧
      (after = .emitting (batch.filter keep) (batch.filter fun record => !keep record) false ∧
          (∀ record ∈ batch, (∀ state, stream.books.tracker record.key = some state →
            state.reached record.offset = true →
              stream.books.tracker.Accounted stream.Done record) →
            books.tracker.Accounted (stream.register batch keep).Done record) ∨
        ∃ error, after = .closed error) := by
  obtain ⟨ascending, readable⟩ := coherent.decoding batch phase
  obtain ⟨books, after, result, ⟨auto, _⟩ | ⟨_, tracker_eq, cases⟩⟩ :=
    stream.register_cases batch keep
  · simp [explicit] at auto
  have weaker : ∀ record, stream.Done record → (stream.register batch keep).Done record := by
    intro record isDone
    rw [result]
    exact isDone.imp_right fun before => List.mem_append_right _ before
  have stays : ∀ record, stream.books.tracker.Accounted stream.Done record →
      books.tracker.Accounted (stream.register batch keep).Done record := by
    intro record accounted
    rw [tracker_eq]
    exact (accounted.recordDeliveries batch).mono weaker
  refine ⟨books, after, result, tracker_eq, ?_, stays, cases.imp_left fun accepted => ?_⟩
  · rw [tracker_eq]
    exact (sound.recordDeliveries batch).mono weaker
  · refine ⟨accepted.2, fun record inside passed => ?_⟩
    have pair : stream.books.tracker.recordDeliveries batch = (.ok (), books.tracker) :=
      Prod.ext accepted.1 tracker_eq.symm
    rcases AckTracker.recordDeliveries_ok (fun other inside => (readable other inside).1)
        ascending pair record inside with ⟨state, found, waits⟩ | ⟨state, found, reached⟩
    · exact ⟨state, found, Or.inl waits⟩
    · exact stays record (passed state found reached)

theorem Tracks.register (tracks : stream.Tracks) (coherent : stream.Coherent visible)
    {batch : List Coordinate} {keep : Coordinate → Bool} (phase : stream.phase = .decoding batch)
    (above : stream.registersAbove (.decoded keep) = true) :
    Tracks (stream.register batch keep) := by
  obtain ⟨books, after, result, _, sound, stays, outcome⟩ :=
    registration tracks.explicit tracks.sound coherent phase keep
  rw [result] at sound stays outcome ⊢
  refine ⟨tracks.explicit, sound, ?_, ?_⟩
  · intro record held membership
    have assigned := held.assigned (by rcases outcome with ⟨rfl, _⟩ | ⟨_, rfl⟩ <;> simp)
    exact stays record (tracks.emitted record (.inl assigned) membership)
  · intro toEmit filteredAcks commit emitting record inside
    rcases outcome with ⟨rfl, waits⟩ | ⟨_, rfl⟩
    · cases emitting
      obtain ⟨inBatch, kept⟩ := List.mem_filter.mp inside
      refine waits record inBatch fun state found reached => ?_
      have entry_reached :
          (stream.books.tracker.entry record.key).reached record.offset = true := by
        simpa [AckTracker.entry, found] using reached
      simp only [registersAbove, phase, List.all_eq_true] at above
      have isDone : stream.Done record := by
        simpa [kept, entry_reached] using above record inBatch
      exact ⟨state, found, Or.inr ⟨reached, isDone⟩⟩
    · cases emitting

/-- One recorded acknowledgement of a record that is done. -/
theorem Tracks.acknowledge (tracks : stream.Tracks) {record : Coordinate} {books : Books}
    (tracker_eq : books.tracker = (stream.books.tracker.recordAck record).2) (idle : Idle phase) :
    Tracks { stream with acked := record :: stream.acked, books := books, phase := phase } := by
  have more := tracks.idle idle (List.subset_cons_self record stream.acked)
  have isDone : Done { stream with phase := phase, acked := record :: stream.acked } record :=
    Or.inl List.mem_cons_self
  refine ⟨tracks.explicit, ?_, ?_, ?_⟩
  · rw [tracker_eq]
    exact more.sound.recordAck isDone
  · intro other held membership
    have assigned := held.assigned (by rcases idle with rfl | rfl | ⟨_, rfl⟩ <;> simp)
    rw [tracker_eq]
    exact (more.emitted other (.inl assigned) membership).recordAck more.sound isDone
  · rcases idle with rfl | rfl | ⟨_, rfl⟩ <;> simp

theorem Tracks.settle (tracks : stream.Tracks) (coherent : stream.Coherent visible)
    {filteredAcks : List Coordinate} {commit : Bool}
    (phase : stream.phase = .emitting [] filteredAcks commit) :
    Tracks (stream.settle filteredAcks commit) := by
  obtain ⟨_, acks⟩ := coherent.emitting _ _ _ phase
  obtain ⟨books, after, result, idle, ⟨auto, _⟩ | ⟨_, tracker_eq, _⟩⟩ :=
    stream.settle_cases filteredAcks commit
  · simp [tracks.explicit] at auto
  · have kept : books.tracker.Sound stream.Done ∧
        ∀ record, stream.books.tracker.Accounted stream.Done record →
          books.tracker.Accounted stream.Done record := by
      rw [tracker_eq]
      refine Books.acknowledgeAll_preserves (fun tracker => tracker.Sound stream.Done ∧
        ∀ record, stream.books.tracker.Accounted stream.Done record →
          tracker.Accounted stream.Done record) ?_ ⟨tracks.sound, fun _ accounted => accounted⟩
      rintro tracker ack inside ⟨sound, accounted⟩
      have isDone : stream.Done ack := Or.inr (acks ack inside).2
      exact ⟨sound.recordAck isDone, fun record before =>
        (accounted record before).recordAck sound isDone⟩
    rw [result]
    refine ⟨tracks.explicit, kept.1, ?_, ?_⟩
    · intro record held membership
      have assigned := held.assigned (by rcases idle with rfl | rfl | ⟨_, rfl⟩ <;> simp)
      exact kept.2 record (tracks.emitted record (.inl assigned) membership)
    · rcases idle with rfl | rfl | ⟨_, rfl⟩ <;> simp

theorem Tracks.readAssignment (tracks : stream.Tracks) : Tracks stream.readAssignment := by
  refine ⟨tracks.explicit, tracks.sound.retain _, ?_, by simp [Subscription.readAssignment]⟩
  intro record held membership
  have assigned : stream.group.assigned record.key = true := by
    rcases held with held | ⟨_, tracked⟩
    · exact held
    · obtain ⟨_, found⟩ := Option.isSome_iff_exists.mp tracked
      exact (AckTracker.retain_eq_some.mp found).1
  exact (tracks.emitted record (.inl assigned) membership).retain assigned

theorem Tracks.commitDone (tracks : stream.Tracks) (due : stream.CommitDue) :
    Tracks stream.commitDone := by
  have tracker_eq := commitDone_tracker tracks.explicit (due.sending tracks.explicit)
  refine ⟨tracks.explicit, ?_, ?_, by simp [Subscription.commitDone]⟩
  · rw [tracker_eq]
    exact tracks.sound.recordCommit
  · intro record held membership
    have assigned := held.assigned (by simp [Subscription.commitDone])
    rw [tracker_eq]
    exact (tracks.emitted record (.inl assigned) membership).recordCommit

theorem tracks_step {next : Subscription} {action : Action} (coherent : stream.Coherent visible)
    (tracks : stream.Tracks) (above : stream.registersAbove action = true)
    (taken : step visible stream action = some next) : next.Tracks := by
  cases step_cases taken with
  | assign => exact tracks.assign coherent _
  | revoke => exact tracks.revoke _
  | otherCommit | nativeCommit =>
    exact ⟨tracks.explicit, tracks.sound, tracks.emitted, tracks.emitting⟩
  | nativePoll =>
    refine ⟨tracks.explicit, tracks.sound, fun record held membership => ?_,
      by simp [Subscription.nativePoll]⟩
    exact tracks.emitted record
      (.inl (held.assigned (by simp [Subscription.nativePoll]))) membership
  | decoded phase => exact tracks.register coherent phase above
  | closed => exact tracks.idle (Or.inr (Or.inr ⟨_, rfl⟩)) (List.Subset.refl _)
  | @frame frame =>
    rcases stream.receive_cases frame with
      ⟨phase, acked, result, idle, grows⟩ |
        ⟨record, books, phase, _, _, _, tracker_eq, result, idle⟩
    · rw [result]
      exact tracks.idle (idle.imp_right Or.inr) grows
    · rw [result]
      exact tracks.acknowledge tracker_eq (Or.inr idle)
  | @emit record rest filteredAcks commit phase =>
    have waiting := tracks.emitting _ _ _ phase
    refine ⟨tracks.explicit, tracks.sound, ?_, ?_⟩
    · intro other held membership
      rcases List.mem_cons.mp membership with same | before
      · obtain rfl : other = record := congrArg Prod.fst same
        exact waiting other List.mem_cons_self
      · exact tracks.emitted other (.inl (held.assigned (by simp [emitNext]))) before
    · intro _ _ _ emitting other inside
      cases emitting
      exact waiting other (List.mem_cons_of_mem _ inside)
  | acknowledge phase => exact tracks.settle coherent phase
  | readAssignment => exact tracks.readAssignment
  | commit due => exact tracks.commitDone due
  | @commitFailed _ message =>
    have closed : Tracks (stream.close (some (.internal message))) :=
      tracks.idle (Or.inr (Or.inr ⟨_, rfl⟩)) (List.Subset.refl _)
    exact ⟨closed.explicit, closed.sound, closed.emitted, closed.emitting⟩

/-- Every record below an offset that `commit_acked` sends, delivered since the
partition was last assigned, is acknowledged or filtered. -/
def CommitsDone (stream : Subscription) : Prop :=
  ∀ key next, stream.commitOffsets key = some next →
    ∀ offset, (⟨key, offset⟩, stream.group.epoch key) ∈ stream.emitted → offset < next →
      stream.Done ⟨key, offset⟩

theorem commit_covers_done (visible : TopicPartition → Int → Bool)
    (committed : TopicPartition → Int) (actions : List Action) (stream : Subscription)
    (along : Run.Along (step visible) (fun stream action => stream.registersAbove action)
      (start false committed) actions)
    (run : Run.exec (step visible) (start false committed) actions = some stream) :
    stream.CommitsDone := by
  have ⟨_, tracks⟩ : stream.Coherent visible ∧ stream.Tracks :=
    Run.exec_preserves (fun stream => stream.Coherent visible ∧ stream.Tracks)
      (fun _ _ _ ⟨coherent, tracks⟩ above taken =>
        ⟨coherent_step coherent taken, tracks_step coherent tracks above taken⟩)
      ⟨coherent_start false committed, tracks_start committed⟩ along run
  intro key next sent offset emitted below
  have watched := watched_of_commitOffsets tracks.explicit sent
  obtain ⟨_, value⟩ := commitOffsets_eq_some tracks.explicit sent
  obtain ⟨frontier, tracked, _, _, rfl⟩ := PartitionAckState.commitValue_eq_some.mp value
  have reached : (stream.books.tracker.entry key).reached offset = true :=
    PartitionAckState.reached_iff.mpr ⟨frontier, tracked, by omega⟩
  exact tracks.sound.done_of_reached (tracks.emitted ⟨key, offset⟩ watched emitted) reached

theorem commit_covers_done_in_order :
    ∃ stream, Run.exec (step fun _ _ => true) (start false fun _ => 0)
        (acknowledgedAfterReturn ++ [.readAssignment]) = some stream ∧
      stream.commitOffsets orders = some 1 ∧ stream.CommitsDone := by
  exact ⟨_, rfl, rfl, commit_covers_done (fun _ _ => true) (fun _ => 0)
    (acknowledgedAfterReturn ++ [.readAssignment]) _ (by decide) rfl⟩

def returns : TopicPartition := ("returns", 0)

/-- Offsets 5 to 8 of `orders` are delivered and not acknowledged. The partition
is revoked, a commit for `returns` drops its tracker, and it comes back. A late
acknowledgement of 7 seeds the tracker at 7, so the redelivered 5 and 6 are not
tracked, and the acknowledgement of 8 commits over them. -/
def lateAcknowledgement : List Action :=
  let deliver (key : TopicPartition) (next : Int) : List Action :=
    [.nativePoll [key] fun _ => next, .decoded fun _ => true]
  [.assign orders] ++ deliver orders 9 ++ [.emit, .emit, .emit, .emit, .acknowledge] ++
    [.assign returns] ++ deliver returns 6 ++ [.emit, .acknowledge] ++
    [.revoke orders, .frame (.ack ⟨returns, 5⟩), .readAssignment, .commit] ++
    [.assign orders, .frame (.ack ⟨orders, 7⟩), .readAssignment, .commit] ++
    deliver orders 9 ++ [.emit, .emit, .emit, .emit, .acknowledge] ++
    [.frame (.ack ⟨orders, 8⟩), .readAssignment]

theorem late_acknowledgement_skips :
    ∃ stream, Run.exec (step fun _ _ => true) (start false fun _ => 5) lateAcknowledgement =
        some stream ∧
      stream.phase = .sending ∧ stream.commitOffsets orders = some 9 ∧
      ¬ stream.CommitsDone := by
  have seen : ∃ stream ∈ Run.exec (step fun _ _ => true) (start false fun _ => 5)
      lateAcknowledgement, stream.phase = .sending ∧ stream.commitOffsets orders = some 9 ∧
        (⟨orders, 5⟩, stream.group.epoch orders) ∈ stream.emitted ∧
        stream.acked = [⟨orders, 8⟩, ⟨orders, 7⟩, ⟨returns, 5⟩] ∧ stream.filtered = [] := by
    decide +kernel
  obtain ⟨stream, run, phase, sent, emitted, acked, filtered⟩ := seen
  refine ⟨stream, run, phase, sent, fun done => ?_⟩
  have skipped := done orders 9 sent 5 emitted (by decide)
  simp [Done, acked, filtered, orders, returns] at skipped

end KrabkaGateway.Consume.Subscription
