import KrabkaGateway.Consume.Acknowledged
import KrabkaGateway.Consume.Committed

/-!
# Explicit acknowledgement

The contract of `auto_commit = false`: the group's committed offset does not
pass a record that the stream delivers and the client has not acknowledged.
The session builds its consumer without `enable_auto_commit(false)`, so the
native client also commits its positions by itself, acknowledged or not, and
also between a poll and the delivery of its records.

The tracker covers a partition without gaps: below everything it has
registered, each readable record from the resume offset on is either waited
for or done.
-/

namespace KrabkaGateway.Consume.Subscription

open Lib

variable {visible : TopicPartition → Int → Bool}

/-- The partition's tracker has come as far as the offset. -/
def Registered (state : PartitionAckState) (offset : Int) : Prop :=
  offset ∈ state.delivered ∨ state.reached offset = true

def undecoded (stream : Subscription) : List Coordinate :=
  match stream.phase with
  | .decoding batch => batch
  | _ => []

def Between (visible : TopicPartition → Int → Bool) (group : Group) (upper : Int)
    (record : Coordinate) : Prop :=
  Readable visible record ∧ group.resumed record.key ≤ record.offset ∧ record.offset ≤ upper

/-- What the acknowledgement of fresh records does to a tracker. -/
structure Acked (group : Group) (done : Coordinate → Prop) (before after : AckTracker) :
    Prop where
  sound : after.Sound done
  accounted : ∀ record, before.Accounted done record → after.Accounted done record
  registered : ∀ key, group.assigned key = true → ∀ upper, Registered (after.entry key) upper →
    ∃ bound, upper ≤ bound ∧ Registered (before.entry key) bound
  value : ∀ key next, group.assigned key = true → (after.entry key).commitValue = some next →
    (before.entry key).commitValue = some next ∨ group.resumed key ≤ next

variable {group : Group} {done : Coordinate → Prop} {tracker : AckTracker}

theorem acked_refl (sound : tracker.Sound done) : Acked group done tracker tracker :=
  ⟨sound, fun _ accounted => accounted, fun _ _ upper registered => ⟨upper, le_refl _, registered⟩,
    fun _ _ _ value => Or.inl value⟩

variable {record : Coordinate}

theorem frontier_of_accounted (sound : tracker.Sound done)
    (accounted : tracker.Accounted done record) : (tracker.entry record.key).frontier ≠ none := by
  obtain ⟨state, found, cases⟩ := accounted
  intro unseeded
  rw [AckTracker.entry, found, Option.getD_some] at unseeded
  have untouched := (sound.wellFormed _ _ found).unseeded unseeded
  subst untouched
  simp [PartitionAckState.reached] at cases

theorem Acked.recordAck {before after : AckTracker} (placed : group.Placed visible)
    (acked : Acked group done before after) {ack : Coordinate} (isDone : done ack)
    (fresh : Fresh group ack) (waits : group.assigned ack.key = true → before.Accounted done ack) :
    Acked group done before (after.recordAck ack).2 := by
  refine ⟨acked.sound.recordAck isDone,
    fun record accounted => (acked.accounted record accounted).recordAck acked.sound isDone,
    fun key held upper registered => ?_, fun key next held value => ?_⟩
  · rcases after.entry_recordAck ack key with unchanged | ⟨rfl, result⟩
    · rw [unchanged] at registered
      exact acked.registered key held upper registered
    · have acknowledges := PartitionAckState.acknowledges_recordAck
        (acked.sound.entry ack.key) ack.offset
      rw [result] at registered
      rcases registered with waiting | reached
      · exact acked.registered _ held upper (Or.inl (acknowledges.kept upper waiting))
      · obtain ⟨frontier, isFrontier, below⟩ := PartitionAckState.reached_iff.mp reached
        rcases acknowledges.frontier frontier isFrontier with same | delivered | ⟨unseeded, _⟩
        · exact acked.registered _ held upper
            (Or.inr (PartitionAckState.reached_iff.mpr ⟨frontier, same, below⟩))
        · obtain ⟨bound, above, wasRegistered⟩ :=
            acked.registered _ held frontier (Or.inl delivered)
          exact ⟨bound, below.trans above, wasRegistered⟩
        · exact absurd unseeded
            (frontier_of_accounted acked.sound (acked.accounted ack (waits held)))
  · rcases after.entry_recordAck ack key with unchanged | ⟨rfl, result⟩
    · rw [unchanged] at value
      exact acked.value key next held value
    · rw [result] at value
      have acknowledges := PartitionAckState.acknowledges_recordAck
        (acked.sound.entry ack.key) ack.offset
      rcases acknowledges.commitValue next value with same | ⟨passed, _⟩
      · exact acked.value _ next held same
      · have resumed := (placed.current ack held fresh).1
        exact Or.inr (resumed.trans passed.le)

variable {batch : List Coordinate} {key : TopicPartition}

theorem registered_recordDeliveries {upper : Int}
    (registered : Registered ((tracker.recordDeliveries batch).2.entry key) upper) :
    ∃ bound, upper ≤ bound ∧ (Registered (tracker.entry key) bound ∨ ⟨key, bound⟩ ∈ batch) := by
  revert key upper
  refine AckTracker.recordDeliveries_preserves (fun after => ∀ {key : TopicPartition} {upper : Int},
    Registered (after.entry key) upper →
      ∃ bound, upper ≤ bound ∧ (Registered (tracker.entry key) bound ∨ ⟨key, bound⟩ ∈ batch))
    ?_ fun registered => ⟨_, le_refl _, Or.inl registered⟩
  intro after delivery inside bounded key upper registered
  rcases after.entry_recordDelivery delivery key with unchanged | ⟨rfl, result⟩
  · exact bounded (unchanged ▸ registered)
  · have registers := (after.entry delivery.key).registers_recordDelivery delivery.offset
    rw [result] at registered
    rcases registered with waiting | reached
    · rcases registers.added upper waiting with before | rfl
      · exact bounded (Or.inl before)
      · exact ⟨delivery.offset, le_refl _, Or.inr inside⟩
    · rcases registers.frontier with same | ⟨_, seeded, _⟩
      · refine bounded (Or.inr ?_)
        rwa [PartitionAckState.reached, same] at reached
      · obtain ⟨frontier, isFrontier, below⟩ := PartitionAckState.reached_iff.mp reached
        rw [seeded] at isFrontier
        cases isFrontier
        exact ⟨delivery.offset, by omega, Or.inr inside⟩

/-- What an explicit-mode stream keeps. The last three fields say that the
tracker has no gaps: none below what is registered, none below the position
but for the batch being decoded, and none below that batch. -/
structure Covers (visible : TopicPartition → Int → Bool) (stream : Subscription) : Prop where
  explicit : stream.autoCommit = false
  sound : stream.books.tracker.Sound stream.Done
  lower : ∀ key, stream.group.resumed key ≤ stream.group.committed key
  emitted : ∀ entry ∈ stream.emitted, entry.1 ∉ stream.filtered
  emitting : ∀ toEmit filteredAcks commit, stream.phase = .emitting toEmit filteredAcks commit →
    ∀ record ∈ toEmit, record ∉ stream.filtered
  quiet : Working stream.phase → ∀ key, (stream.books.tracker.entry key).commitValue = none
  value : stream.phase = .committing → ∀ key next, stream.group.assigned key = true →
    (stream.books.tracker.entry key).commitValue = some next → stream.group.resumed key ≤ next
  sent : stream.phase = .sending → ∀ key next,
    (stream.books.tracker.entry key).commitValue = some next → stream.group.resumed key ≤ next
  gapless : stream.phase.isClosed = false → ∀ record upper,
    (stream.phase = .committing → stream.group.assigned record.key = true) →
    Registered (stream.books.tracker.entry record.key) upper →
    Between visible stream.group upper record → stream.books.tracker.Accounted stream.Done record
  caught : stream.phase.isClosed = false → ∀ record, stream.group.assigned record.key = true →
    Between visible stream.group (stream.group.position record.key - 1) record →
    stream.books.tracker.Accounted stream.Done record ∨ record ∈ stream.undecoded
  batch : ∀ later ∈ stream.undecoded, ∀ record, record.key = later.key →
    Between visible stream.group later.offset record →
    stream.books.tracker.Accounted stream.Done record ∨ record ∈ stream.undecoded

theorem covers_start (committed : TopicPartition → Int) :
    Covers visible (start false committed) where
  explicit := rfl
  sound := ⟨by simp [start, Books.new], by simp [start, Books.new]⟩
  lower := fun _ => le_refl _
  emitted := by simp [start]
  emitting := by simp [start]
  quiet := fun _ _ => rfl
  value := by simp [start]
  sent := by simp [start]
  gapless := by
    intro _ record upper _ registered
    simp [Registered, start, Books.new, AckTracker.entry, PartitionAckState.reached] at registered
  caught := by simp [start, Group.join]
  batch := by simp [start, undecoded]

variable {stream : Subscription}

variable (covers : stream.Covers visible)
include covers

/-- Assignment moves the resume offset up, so less has to be covered. -/
theorem Covers.assign (fresh : stream.freshAcks (.assign key) = true) :
    Covers visible { stream with group := stream.group.assign key } := by
  simp only [freshAcks, decide_eq_true_eq] at fresh
  have unheld : ∀ other, other ≠ key → (stream.group.assign key).assigned other = true →
      stream.group.assigned other = true := by
    intro other different held
    simpa [Group.assign, different] using held
  have narrower : ∀ upper record, Between visible (stream.group.assign key) upper record →
      Between visible stream.group upper record := by
    rintro upper record ⟨readable, resumed, below⟩
    refine ⟨readable, ?_, below⟩
    by_cases same : record.key = key
    · subst same
      simp only [Group.assign, set_self] at resumed
      exact (covers.lower record.key).trans resumed
    · simpa [Group.assign, same] using resumed
  exact {
    covers with
    lower := by
      intro other
      by_cases same : other = key
      · simp [Group.assign, same]
      · simpa [Group.assign, same] using covers.lower other
    value := by
      intro committing other next held value
      by_cases same : other = key
      · subst same
        have untracked := fresh.resolve_left fun notDue => notDue.1 committing
        cases (commitValue_of_untracked untracked).symm.trans value
      · simpa [Group.assign, same] using
          covers.value committing other next (unheld other same held) value
    sent := by
      intro sending other next value
      by_cases same : other = key
      · subst same
        have untracked := fresh.resolve_left fun notDue => notDue.2 sending
        cases (commitValue_of_untracked untracked).symm.trans value
      · simpa [Group.assign, same] using covers.sent sending other next value
    gapless := by
      intro running record upper relevant registered between
      refine covers.gapless running record upper (fun committing => ?_) registered
        (narrower upper record between)
      by_cases same : record.key = key
      · have untracked := fresh.resolve_left fun notDue => notDue.1 committing
        simp [Registered, AckTracker.entry, same, untracked, PartitionAckState.reached]
          at registered
      · exact unheld record.key same (relevant committing)
    caught := by
      intro running record held between
      by_cases same : record.key = key
      · -- Nothing lies between the resume offset and the position.
        obtain ⟨_, resumed, below⟩ := between
        simp only [Group.assign, same, set_self] at resumed below
        omega
      · have position_eq : (stream.group.assign key).position record.key =
            stream.group.position record.key := by simp [Group.assign, same]
        rw [position_eq] at between
        exact covers.caught running record (unheld record.key same held)
          (narrower _ record between)
    batch := fun later inside record sameKey between =>
      covers.batch later inside record sameKey (narrower _ record between) }

theorem Covers.revoke (key : TopicPartition) :
    Covers visible { stream with group := stream.group.revoke key } :=
  { covers with
    value := fun committing other next held =>
      covers.value committing other next (Group.held_of_revoke held)
    gapless := fun running record upper relevant => covers.gapless running record upper
      fun committing => Group.held_of_revoke (relevant committing)
    caught := fun running record held =>
      covers.caught running record (Group.held_of_revoke held) }

theorem Covers.withCommitted {committed : TopicPartition → Int}
    (lower : ∀ key, stream.group.resumed key ≤ committed key) :
    Covers visible { stream with group := { stream.group with committed := committed } } :=
  { covers with lower := lower }

theorem Covers.nativePoll (phase : stream.phase = .select) {keys : List TopicPartition}
    {next : TopicPartition → Int} (held : ∀ key ∈ keys, stream.group.assigned key = true) :
    Covers visible (stream.nativePoll visible keys next) := by
  have working : Working stream.phase := by simp [Working, phase]
  have running := working.running
  have behind : ∀ record, stream.group.assigned record.key = true →
      Between visible stream.group (stream.group.position record.key - 1) record →
      stream.books.tracker.Accounted stream.Done record := by
    intro record isHeld between
    simpa [undecoded, phase] using covers.caught running record isHeld between
  -- Below the old position everything is accounted for; above it lies the batch.
  have fetched : ∀ record upper, record.key ∈ keys → upper < next record.key →
      Between visible stream.group upper record →
      stream.books.tracker.Accounted stream.Done record ∨
        record ∈ stream.group.batch visible keys next := by
    rintro record upper listed bound ⟨⟨valid, isVisible⟩, resumed, below⟩
    by_cases old : record.offset < stream.group.position record.key
    · exact Or.inl (behind record (held _ listed) ⟨⟨valid, isVisible⟩, resumed, by omega⟩)
    · exact Or.inr (Group.mem_batch.mpr
        ⟨listed, not_lt.mp old, by omega, valid.2, isVisible⟩)
  exact {
    covers with
    emitting := by simp [Subscription.nativePoll]
    quiet := fun _ => covers.quiet working
    value := by simp [Subscription.nativePoll]
    sent := by simp [Subscription.nativePoll]
    gapless := fun _ record upper _ registered between =>
      covers.gapless running record upper (by simp [phase]) registered between
    caught := by
      intro _ record isHeld between
      by_cases listed : record.key ∈ keys
      · refine fetched record _ listed ?_ between
        simp only [Subscription.nativePoll, Group.poll, listed, if_true]
        omega
      · simp only [Subscription.nativePoll, Group.poll, listed, if_false] at between
        exact Or.inl (behind record isHeld between)
    batch := by
      intro later inside record sameKey between
      obtain ⟨listed, _, bound, _⟩ := Group.mem_batch.mp inside
      exact fetched record later.offset (sameKey ▸ listed) (sameKey ▸ bound) between }

/-- A redelivered record meets the filter decision it met before. -/
def decidesAlike (stream : Subscription) : Action → Bool
  | .decoded keep =>
    match stream.phase with
    | .decoding batch =>
      batch.all fun record =>
        if keep record then decide (record ∉ stream.filtered)
        else decide (record ∉ stream.emitted.map Prod.fst)
    | _ => true
  | _ => true

theorem Covers.register (coherent : stream.Coherent visible) {keep : Coordinate → Bool}
    (phase : stream.phase = .decoding batch) (alike : stream.decidesAlike (.decoded keep) = true) :
    Covers visible (stream.register batch keep) := by
  have working : Working stream.phase := by simp [Working, phase]
  have running := working.running
  have undecoded_eq : stream.undecoded = batch := by simp [undecoded, phase]
  have decisions : ∀ record ∈ batch,
      (keep record = true → record ∉ stream.filtered) ∧
        (keep record = false → ∀ epoch, (record, epoch) ∉ stream.emitted) := by
    intro record inside
    simp only [decidesAlike, phase, List.all_eq_true] at alike
    have decision := alike record inside
    constructor
    · intro kept
      simpa [kept] using decision
    · intro removed epoch
      simp [removed] at decision
      exact decision epoch
  obtain ⟨books, after, result, tracker_eq, sound, stays, outcome⟩ :=
    registration covers.explicit covers.sound coherent phase keep
  have passed : ∀ record ∈ batch, stream.group.resumed record.key ≤ record.offset →
      ∀ state, stream.books.tracker record.key = some state →
        state.reached record.offset = true →
          stream.books.tracker.Accounted stream.Done record := by
    intro record inside resumed state found reached
    have registered : Registered (stream.books.tracker.entry record.key) record.offset := by
      right
      simpa [AckTracker.entry, found] using reached
    exact covers.gapless running record record.offset (by simp [phase]) registered
      ⟨(coherent.decoding batch phase).2 record inside, resumed, le_refl _⟩
  rw [result] at sound stays outcome ⊢
  refine ⟨covers.explicit, sound, covers.lower, ?_, ?_, ?_, ?_, ?_, ?_, ?_, ?_⟩
  · intro entry membership inFiltered
    rcases List.mem_append.mp inFiltered with removed | before
    · obtain ⟨inside, notKept⟩ := List.mem_filter.mp removed
      exact (decisions entry.1 inside).2 (by simpa using notKept) entry.2 membership
    · exact covers.emitted entry membership before
  · intro toEmit filteredAcks commit emitting record inside inFiltered
    rcases outcome with ⟨rfl, _⟩ | ⟨_, rfl⟩
    · cases emitting
      obtain ⟨inBatch, kept⟩ := List.mem_filter.mp inside
      rcases List.mem_append.mp inFiltered with removed | before
      · simp [kept] at removed
      · exact (decisions record inBatch).1 kept before
    · cases emitting
  · intro _ key
    rw [tracker_eq, AckTracker.commitValue_recordDeliveries]
    exact covers.quiet working key
  · rcases outcome with ⟨rfl, _⟩ | ⟨_, rfl⟩ <;> simp
  · rcases outcome with ⟨rfl, _⟩ | ⟨_, rfl⟩ <;> simp
  · intro stillRunning record upper _ registered between
    rcases outcome with ⟨rfl, waits⟩ | ⟨_, rfl⟩
    · dsimp only at registered
      rw [tracker_eq] at registered
      obtain ⟨bound, above, before | inside⟩ := registered_recordDeliveries registered
      · exact stays record (covers.gapless running record bound (by simp [phase]) before
          ⟨between.1, between.2.1, between.2.2.trans above⟩)
      · rcases covers.batch ⟨record.key, bound⟩ (undecoded_eq ▸ inside) record rfl
            ⟨between.1, between.2.1, between.2.2.trans above⟩ with accounted | inBatch
        · exact stays record accounted
        · rw [undecoded_eq] at inBatch
          exact waits record inBatch (passed record inBatch between.2.1)
    · simp [Phase.isClosed] at stillRunning
  · intro stillRunning record held between
    rcases outcome with ⟨rfl, waits⟩ | ⟨_, rfl⟩
    · left
      rcases covers.caught running record held between with accounted | inBatch
      · exact stays record accounted
      · rw [undecoded_eq] at inBatch
        exact waits record inBatch (passed record inBatch between.2.1)
    · simp [Phase.isClosed] at stillRunning
  · rcases outcome with ⟨rfl, _⟩ | ⟨_, rfl⟩ <;> simp [undecoded]

variable {phase : Phase}

/-- Once the batch is decoded, a step that does not touch the books keeps the
coverage, with more acknowledgements and more records emitted. -/
theorem Covers.idle (working : Working stream.phase) (decoded : stream.undecoded = [])
    (notDue : phase ≠ .committing ∧ phase ≠ .sending) {emitted : List (Coordinate × Nat)}
    {acked : List Coordinate} (grows : stream.acked ⊆ acked)
    (unfiltered : ∀ entry ∈ emitted, entry.1 ∉ stream.filtered)
    (emitting : ∀ toEmit filteredAcks commit, phase = .emitting toEmit filteredAcks commit →
      ∀ record ∈ toEmit, record ∉ stream.filtered)
    (nothing : undecoded { stream with phase := phase } = []) :
    Covers visible { stream with phase := phase, emitted := emitted, acked := acked } := by
  have weaker : ∀ record, stream.Done record →
      Done { stream with phase := phase, emitted := emitted, acked := acked } record :=
    fun record => Or.imp_left fun before => grows before
  have running := working.running
  refine ⟨covers.explicit, covers.sound.mono weaker, covers.lower, unfiltered, emitting,
    fun _ => covers.quiet working, fun committing => absurd committing notDue.1,
    fun sending => absurd sending notDue.2, ?_, ?_, ?_⟩
  · intro _ record upper _ registered between
    exact (covers.gapless running record upper (fun committing => absurd committing working.1)
      registered between).mono weaker
  · intro _ record held between
    left
    rcases covers.caught running record held between with accounted | inside
    · exact accounted.mono weaker
    · simp [decoded] at inside
  · intro later inside
    have empty :
        undecoded { stream with phase := phase, emitted := emitted, acked := acked } = [] :=
      nothing
    simp [empty] at inside

omit covers in
theorem covers_of_closed (closed : stream.phase.isClosed = true)
    (explicit : stream.autoCommit = false) (sound : stream.books.tracker.Sound stream.Done)
    (lower : ∀ key, stream.group.resumed key ≤ stream.group.committed key)
    (emitted : ∀ entry ∈ stream.emitted, entry.1 ∉ stream.filtered) : stream.Covers visible := by
  obtain ⟨error, phase⟩ : ∃ error, stream.phase = .closed error := by
    cases isPhase : stream.phase <;> simp_all [Phase.isClosed]
  exact {
    explicit := explicit
    sound := sound
    lower := lower
    emitted := emitted
    emitting := by simp [phase]
    quiet := fun working => absurd phase (working.2.2 error)
    value := by simp [phase]
    sent := by simp [phase]
    gapless := by simp [closed]
    caught := by simp [closed]
    batch := by simp [undecoded, phase] }

theorem Covers.close (error : Option ConnectError) : Covers visible (stream.close error) :=
  covers_of_closed rfl covers.explicit covers.sound covers.lower covers.emitted

/-- The stream after fresh acknowledgements, with a commit due or ended. -/
theorem Covers.acked (working : Working stream.phase) (decoded : stream.undecoded = [])
    {books : Books} (acked : Acked stream.group stream.Done stream.books.tracker books.tracker)
    (idle : phase = .committing ∨ ∃ error, phase = .closed error) :
    Covers visible { stream with books := books, phase := phase } := by
  have running := working.running
  refine ⟨covers.explicit, acked.sound, covers.lower, covers.emitted, ?_, ?_, ?_, ?_, ?_, ?_, ?_⟩
  · rcases idle with rfl | ⟨_, rfl⟩ <;> simp
  · rcases idle with rfl | ⟨_, rfl⟩ <;> simp [Working]
  · intro _ key next held value
    rcases acked.value key next held value with before | resumed
    · simp [covers.quiet working key] at before
    · exact resumed
  · rcases idle with rfl | ⟨_, rfl⟩ <;> simp
  · intro stillRunning record upper relevant registered between
    rcases idle with rfl | ⟨_, rfl⟩
    · obtain ⟨bound, above, before⟩ :=
        acked.registered record.key (relevant rfl) upper registered
      exact acked.accounted record (covers.gapless running record bound
        (fun committing => absurd committing working.1) before
        ⟨between.1, between.2.1, between.2.2.trans above⟩)
    · simp [Phase.isClosed] at stillRunning
  · intro _ record held between
    left
    rcases covers.caught running record held between with accounted | inside
    · exact acked.accounted record accounted
    · simp [decoded] at inside
  · rcases idle with rfl | ⟨_, rfl⟩ <;> simp [undecoded]

theorem Covers.accounted_fresh (coherent : stream.Coherent visible)
    (running : stream.phase.isClosed = false) (decoded : stream.undecoded = [])
    (fresh : Fresh stream.group record) (held : stream.group.assigned record.key = true) :
    stream.books.tracker.Accounted stream.Done record := by
  obtain ⟨resumed, below, readable⟩ := coherent.placed.current record held fresh
  have caught := covers.caught running record held ⟨readable, resumed, by omega⟩
  simpa [decoded] using caught

theorem Covers.receive (coherent : stream.Coherent visible) {frame : Frame}
    (phase : stream.phase = .select ∨ ∃ batch, stream.phase = .decoding batch)
    (keeps : stream.keepsBatch (.frame frame) = true)
    (fresh : stream.freshAcks (.frame frame) = true) : Covers visible (stream.receive frame) := by
  have working : Working stream.phase := by
    rcases phase with idle | ⟨_, decoding⟩ <;> simp_all [Working]
  have running := working.running
  have decoded : (stream.receive frame).phase.isClosed = false → stream.undecoded = [] := by
    intro stillRunning
    have continues : stream.endsStream frame ≠ true := by
      intro ends
      simp [receive_closed ends] at stillRunning
    rcases phase with idle | ⟨batch, decoding⟩
    · simp [undecoded, idle]
    · simpa [keepsBatch, decoding, continues, undecoded] using keeps
  rcases stream.receive_cases frame with
    ⟨after, acked, result, idle, grows⟩ |
      ⟨record, books, after, rfl, _, isFresh, tracker_eq, result, idle⟩
  · rw [result] at decoded ⊢
    rcases idle with rfl | ⟨error, rfl⟩
    · exact covers.idle working (decoded rfl) (by simp) grows covers.emitted (by simp) rfl
    · exact covers_of_closed rfl covers.explicit
        (covers.sound.mono fun record => Or.imp_left fun before => grows before)
        covers.lower covers.emitted
  · have grows := List.subset_cons_self record stream.acked
    have weaker : ∀ other, stream.Done other →
        Done { stream with acked := record :: stream.acked } other :=
      fun other => Or.imp_left fun before => grows before
    have isDone : Done { stream with acked := record :: stream.acked } record :=
      Or.inl List.mem_cons_self
    have isFreshRecord : Fresh stream.group record := by
      simpa [freshAcks, isFresh] using fresh
    rw [result] at decoded ⊢
    rcases idle with rfl | ⟨error, rfl⟩
    · have base : Covers visible
          { stream with phase := .select, acked := record :: stream.acked } :=
        covers.idle working (decoded rfl) (by simp) grows covers.emitted (by simp) rfl
      refine base.acked (by simp [Working]) rfl ?_ (Or.inl rfl)
      rw [tracker_eq]
      refine (acked_refl base.sound).recordAck coherent.placed isDone isFreshRecord fun held => ?_
      exact (covers.accounted_fresh coherent running (decoded rfl) isFreshRecord held).mono weaker
    · refine covers_of_closed rfl covers.explicit ?_ covers.lower covers.emitted
      dsimp only
      rw [tracker_eq]
      exact (covers.sound.mono weaker).recordAck isDone

variable {filteredAcks : List Coordinate} {commit : Bool}

theorem Covers.settle (coherent : stream.Coherent visible)
    (phase : stream.phase = .emitting [] filteredAcks commit)
    (fresh : stream.freshAcks .acknowledge = true) :
    Covers visible (stream.settle filteredAcks commit) := by
  have working : Working stream.phase := by simp [Working, phase]
  have running := working.running
  have decoded : stream.undecoded = [] := by simp [undecoded, phase]
  obtain ⟨_, acks⟩ := coherent.emitting _ _ _ phase
  have areFresh : ∀ record ∈ filteredAcks, Fresh stream.group record := by
    simpa [freshAcks, phase] using fresh
  obtain ⟨books, after, result, idle, ⟨auto, _⟩ | ⟨_, tracker_eq, nothing⟩⟩ :=
    stream.settle_cases filteredAcks commit
  · simp [covers.explicit] at auto
  · have acked : Acked stream.group stream.Done stream.books.tracker books.tracker := by
      rw [tracker_eq]
      refine Books.acknowledgeAll_preserves
        (fun tracker => Acked stream.group stream.Done stream.books.tracker tracker) ?_
        (acked_refl covers.sound)
      intro tracker ack inside acked
      exact acked.recordAck coherent.placed (Or.inr (acks ack inside).2) (areFresh ack inside)
        (covers.accounted_fresh coherent running decoded (areFresh ack inside))
    rw [result]
    rcases idle with rfl | due
    · rw [nothing rfl]
      exact covers.idle working decoded (by simp) (List.Subset.refl _) covers.emitted (by simp) rfl
    · exact covers.acked working decoded acked due

variable {offsets : TopicPartition → Option Int}

theorem Covers.lower_commit (due : stream.CommitDue)
    (sent : ∀ key next, offsets key = some next → stream.commitOffsets key = some next)
    (key : TopicPartition) :
    stream.group.resumed key ≤ (stream.group.commit offsets).committed key := by
  cases value : offsets key with
  | none => simpa [Group.commit, value] using covers.lower key
  | some next =>
    obtain ⟨_, commitValue⟩ := commitOffsets_eq_some covers.explicit (sent key next value)
    simpa [Group.commit, value] using
      covers.sent (due.sending covers.explicit) key next commitValue

/-- What is left of the tracker belongs to assigned partitions. -/
theorem Covers.readAssignment (phase : stream.phase = .committing) :
    Covers visible stream.readAssignment := by
  have running : stream.phase.isClosed = false := by simp [phase, Phase.isClosed]
  have entry_eq : ∀ key, stream.readAssignment.books.tracker.entry key =
      if stream.group.assigned key then stream.books.tracker.entry key else {} :=
    stream.books.tracker.entry_retain stream.group.assigned
  refine ⟨covers.explicit, covers.sound.retain _, covers.lower, covers.emitted,
    by simp [Subscription.readAssignment], fun working => absurd rfl working.2.1,
    by simp [Subscription.readAssignment], ?_, ?_, ?_,
    by simp [Subscription.readAssignment, undecoded]⟩
  · intro _ key next value
    rw [entry_eq] at value
    split at value
    next held => exact covers.value phase key next held value
    next => simp [PartitionAckState.commitValue] at value
  · intro _ record upper _ registered between
    rw [entry_eq] at registered
    split at registered
    next held =>
      exact (covers.gapless running record upper (fun _ => held) registered between).retain held
    next => simp [Registered, PartitionAckState.reached] at registered
  · intro _ record held between
    left
    rcases covers.caught running record held between with accounted | inside
    · exact accounted.retain held
    · simp [undecoded, phase] at inside

theorem Covers.commitDone (due : stream.CommitDue) : Covers visible stream.commitDone := by
  have phase := due.sending covers.explicit
  have running : stream.phase.isClosed = false := by simp [phase, Phase.isClosed]
  have tracker_eq := commitDone_tracker covers.explicit phase
  have entries := stream.books.tracker.entry_recordCommit
  have stays : ∀ record, stream.books.tracker.Accounted stream.Done record →
      stream.commitDone.books.tracker.Accounted stream.Done record := by
    intro record accounted
    rw [tracker_eq]
    exact accounted.recordCommit
  rw [← tracker_eq] at entries
  refine ⟨covers.explicit, ?_, ?_, covers.emitted, by simp [Subscription.commitDone], ?_,
    by simp [Subscription.commitDone], by simp [Subscription.commitDone], ?_, ?_,
    by simp [Subscription.commitDone, undecoded]⟩
  · rw [tracker_eq]
    exact covers.sound.recordCommit
  · exact covers.lower_commit due fun _ _ sent => sent
  · intro _ key
    rcases entries key with ⟨value, unchanged⟩ | ⟨next, value, result⟩
    · rw [unchanged]
      exact value
    · rw [result]
      exact PartitionAckState.commitValue_recordCommit value
  · intro _ record upper _ registered between
    have before : Registered (stream.books.tracker.entry record.key) upper := by
      rcases entries record.key with ⟨_, unchanged⟩ | ⟨next, _, result⟩
      · rwa [unchanged] at registered
      · rwa [result] at registered
    exact stays record (covers.gapless running record upper (by simp [phase]) before between)
  · intro _ record held between
    left
    rcases covers.caught running record held between with accounted | inside
    · exact stays record accounted
    · simp [undecoded, phase] at inside

theorem Covers.emitNext {rest : List Coordinate}
    (phase : stream.phase = .emitting (record :: rest) filteredAcks commit) :
    Covers visible (stream.emitNext record rest filteredAcks commit) := by
  have unfiltered := covers.emitting _ _ _ phase
  refine covers.idle (by simp [Working, phase]) (by simp [undecoded, phase]) (by simp)
    (List.Subset.refl _) ?_ ?_ rfl
  · intro entry membership
    rcases List.mem_cons.mp membership with rfl | before
    · exact unfiltered record List.mem_cons_self
    · exact covers.emitted entry before
  · intro _ _ _ emitting other inside
    cases emitting
    exact unfiltered other (List.mem_cons_of_mem _ inside)

/-- The native client commits by itself only when every record polled from the
assigned partitions since their assignment is acknowledged or removed by the filter. -/
def nativeAfterAcks (stream : Subscription) : Action → Bool
  | .nativeCommit =>
    stream.group.polled.all fun (record, epoch) =>
      !stream.group.assigned record.key || epoch ≠ stream.group.epoch record.key ||
        stream.Done record
  | _ => true

def keepsContract (stream : Subscription) (action : Action) : Bool :=
  stream.nativeAfterAcks action && stream.freshAcks action && stream.keepsBatch action &&
    stream.decidesAlike action

variable {action : Action}

theorem covers_step {next : Subscription} (coherent : stream.Coherent visible)
    (allowed : stream.keepsContract action = true)
    (taken : step visible stream action = some next) :
    next.Covers visible := by
  simp only [keepsContract, Bool.and_eq_true] at allowed
  obtain ⟨⟨⟨_, fresh⟩, keeps⟩, alike⟩ := allowed
  cases step_cases taken with
  | assign => exact covers.assign fresh
  | revoke => exact covers.revoke _
  | @otherCommit moved offset _ forward =>
    refine covers.withCommitted fun key => ?_
    by_cases same : key = moved
    · subst same
      simpa using (covers.lower key).trans forward
    · simpa [same] using covers.lower key
  | nativePoll phase _ held => exact covers.nativePoll phase fun key listed => (held key listed).1
  | decoded phase => exact covers.register coherent phase alike
  | closed => exact covers.close _
  | frame phase => exact covers.receive coherent phase keeps fresh
  | emit phase => exact covers.emitNext phase
  | acknowledge phase => exact covers.settle coherent phase fresh
  | readAssignment phase => exact covers.readAssignment phase
  | commit due => exact covers.commitDone due
  | commitFailed due =>
    refine covers_of_closed rfl covers.explicit covers.sound ?_ covers.emitted
    exact covers.lower_commit due fun _ _ sent => (Option.ite_none_right_eq_some.mp sent).2
  | nativeCommit =>
    refine covers.withCommitted fun key => ?_
    cases held : stream.group.assigned key with
    | false => simpa [Group.positions, held] using covers.lower key
    | true => simpa [Group.positions, held] using coherent.placed.position key held

/-- No committed offset moves past a record that is neither acknowledged nor
removed by the filter. -/
def PassesOnlyDone (visible : TopicPartition → Int → Bool) (stream next : Subscription) : Prop :=
  ∀ record, Readable visible record → stream.group.committed record.key ≤ record.offset →
    record.offset < next.group.committed record.key → stream.Done record

theorem Covers.commit_passes (due : stream.CommitDue)
    (sent : ∀ key next, offsets key = some next → stream.commitOffsets key = some next)
    (readable : Readable visible record) (above : stream.group.committed record.key ≤ record.offset)
    (below : record.offset < (stream.group.commit offsets).committed record.key) :
    stream.Done record := by
  have phase := due.sending covers.explicit
  cases value : offsets record.key with
  | none =>
    simp only [Group.commit, value, Option.getD_none] at below
    omega
  | some next =>
    simp only [Group.commit, value, Option.getD_some] at below
    obtain ⟨_, commitValue⟩ := commitOffsets_eq_some covers.explicit (sent record.key next value)
    obtain ⟨frontier, tracked, _, _, rfl⟩ :=
      PartitionAckState.commitValue_eq_some.mp commitValue
    have reached : (stream.books.tracker.entry record.key).reached record.offset = true :=
      PartitionAckState.reached_iff.mpr ⟨frontier, tracked, by omega⟩
    have resumed := (covers.lower record.key).trans above
    have accounted := covers.gapless (by simp [phase, Phase.isClosed]) record record.offset
      (by simp [phase]) (Or.inr reached) ⟨readable, resumed, le_refl _⟩
    exact covers.sound.done_of_reached accounted reached

/-- Everything readable below a position was polled. -/
theorem Covers.native_passes (coherent : stream.Coherent visible)
    (native : stream.nativeAfterAcks .nativeCommit = true) (readable : Readable visible record)
    (above : stream.group.committed record.key ≤ record.offset)
    (below : record.offset < (stream.group.commit stream.group.positions).committed record.key) :
    stream.Done record := by
  cases held : stream.group.assigned record.key with
  | false =>
    simp only [Group.commit, Group.positions, held] at below
    simp only [Bool.false_eq_true, if_false, Option.getD_none] at below
    omega
  | true =>
    have polled := coherent.placed.complete record held readable
      ((covers.lower record.key).trans above)
      (by simpa [Group.commit, Group.positions, held] using below)
    simp only [nativeAfterAcks, List.all_eq_true] at native
    simpa [held] using native _ polled

theorem Covers.step_passes {next : Subscription} (coherent : stream.Coherent visible)
    (allowed : stream.keepsContract action = true)
    (own : ∀ key offset, action ≠ .otherCommit key offset)
    (taken : step visible stream action = some next) : PassesOnlyDone visible stream next := by
  intro record readable above below
  have unmoved : next.group.committed record.key = stream.group.committed record.key →
      stream.Done record := by
    intro same
    omega
  cases step_cases taken with
  | otherCommit => exact absurd rfl (own _ _)
  | commit due => exact covers.commit_passes due (fun _ _ sent => sent) readable above below
  | commitFailed due =>
    exact covers.commit_passes due (fun _ _ sent => (Option.ite_none_right_eq_some.mp sent).2)
      readable above below
  | nativeCommit =>
    simp only [keepsContract, Bool.and_eq_true] at allowed
    exact covers.native_passes coherent allowed.1.1.1 readable above below
  | @decoded keep batch =>
    obtain ⟨_, _, result, _⟩ := stream.register_cases batch keep
    exact unmoved (by rw [result])
  | @frame frame =>
    rcases stream.receive_cases frame with
      ⟨_, _, result, _⟩ | ⟨_, _, _, _, _, _, _, result, _⟩ <;> exact unmoved (by rw [result])
  | @acknowledge filteredAcks commit =>
    obtain ⟨_, _, result, _⟩ := stream.settle_cases filteredAcks commit
    exact unmoved (by rw [result])
  | assign | revoke | nativePoll | closed | emit | readAssignment => exact unmoved rfl

omit covers in
/-- What the filter has removed stays removed. -/
theorem filtered_subset_step {next : Subscription}
    (taken : step visible stream action = some next) :
    stream.filtered ⊆ next.filtered := by
  cases step_cases taken with
  | @decoded keep batch =>
    obtain ⟨_, _, result, _⟩ := stream.register_cases batch keep
    rw [result]
    exact List.subset_append_right _ _
  | @frame frame =>
    rcases stream.receive_cases frame with
      ⟨_, _, result, _⟩ | ⟨_, _, _, _, _, _, _, result, _⟩ <;>
      (rw [result]; exact List.Subset.refl _)
  | @acknowledge filteredAcks commit =>
    obtain ⟨_, _, result, _⟩ := stream.settle_cases filteredAcks commit
    rw [result]
    exact List.Subset.refl _
  | _ => exact List.Subset.refl _

omit covers in
/-- In a run that keeps the conditions, no step of the session or of its native
consumer passes a record that the stream has delivered, or delivers later, and
that the client has not acknowledged by then. -/
theorem explicit_passes_only_acked (visible : TopicPartition → Int → Bool)
    (committed : TopicPartition → Int) (before after : List Action) (action : Action)
    {stream next final : Subscription}
    (alongBefore : Run.Along (step visible) (fun stream action => stream.keepsContract action)
      (start false committed) before)
    (reached : Run.exec (step visible) (start false committed) before = some stream)
    (along : Run.Along (step visible) (fun stream action => stream.keepsContract action)
      stream (action :: after))
    (taken : step visible stream action = some next)
    (run : Run.exec (step visible) next after = some final)
    (own : ∀ key offset, action ≠ .otherCommit key offset) (record : Coordinate) (epoch : Nat)
    (delivered : (record, epoch) ∈ final.emitted)
    (above : stream.group.committed record.key ≤ record.offset)
    (passed : record.offset < next.group.committed record.key) : record ∈ stream.acked := by
  have preserved : ∀ (stream : Subscription) (action : Action) (next : Subscription),
      stream.Coherent visible ∧ stream.Covers visible → stream.keepsContract action = true →
      step visible stream action = some next → next.Coherent visible ∧ next.Covers visible :=
    fun _ _ _ ⟨coherent, covers⟩ allowed taken =>
      ⟨coherent_step coherent taken, covers_step covers coherent allowed taken⟩
  obtain ⟨coherent, covers⟩ := Run.exec_preserves
    (fun stream => stream.Coherent visible ∧ stream.Covers visible) preserved
    ⟨coherent_start false committed, covers_start committed⟩ alongBefore reached
  obtain ⟨later, laterCovers⟩ := Run.exec_preserves
    (fun stream => stream.Coherent visible ∧ stream.Covers visible) preserved
    (preserved stream action next ⟨coherent, covers⟩ along.1 taken) (along.2 next taken) run
  have kept : stream.filtered ⊆ final.filtered :=
    Run.exec_preserves_always (fun other => stream.filtered ⊆ other.filtered)
      (fun _ _ _ before taken => List.Subset.trans before (filtered_subset_step taken))
      (filtered_subset_step taken) run
  have readable := (later.emitted _ delivered).1
  rcases covers.step_passes coherent along.1 own taken record readable above passed with
    isAcked | isFiltered
  · exact isAcked
  · exact absurd (kept isFiltered) (laterCovers.emitted _ delivered)

omit covers in
/-- Two records are delivered and come again after a reassignment; the first is acknowledged and
committed, with the second outstanding. -/
theorem explicit_passes_only_acked_in_order :
    ∃ stream next,
      Run.exec (step fun _ _ => true) (start false fun _ => 0)
        (acknowledgedAfterReturn ++ [.readAssignment]) = some stream ∧
      step (fun _ _ => true) stream .commit = some next ∧
      next.group.committed orders = 1 ∧ ⟨orders, 0⟩ ∈ stream.acked :=
  ⟨_, _, rfl, rfl, rfl, explicit_passes_only_acked (fun _ _ => true) (fun _ => 0)
    (acknowledgedAfterReturn ++ [.readAssignment]) [] .commit (by decide) rfl (by decide) rfl rfl
    (by simp) ⟨orders, 0⟩ 2 (by decide) (by decide) (by decide)⟩

/-- Two records are delivered and none is acknowledged. -/
def unacknowledged : List Action :=
  [.assign orders, .nativePoll [orders] fun _ => 2, .decoded fun _ => true, .emit, .emit,
    .acknowledge]

omit covers in
/-- The native client's own commit passes both of them. -/
theorem native_commit_passes_unacked :
    ∃ stream next,
      Run.exec (step fun _ _ => true) (start false fun _ => 0) unacknowledged = some stream ∧
      step (fun _ _ => true) stream .nativeCommit = some next ∧
      (⟨orders, 0⟩, 1) ∈ stream.emitted ∧ (⟨orders, 1⟩, 1) ∈ stream.emitted ∧
      stream.group.committed orders = 0 ∧ next.group.committed orders = 2 ∧ stream.acked = [] :=
  ⟨_, _, rfl, rfl, by decide, by decide, rfl, rfl, rfl⟩

/-- So does a commit of the native client while the stream still decodes them. -/
example :
    (Run.exec (step fun _ _ => true) (start false fun _ => 0)
      [.assign orders, .nativePoll [orders] fun _ => 2, .nativeCommit, .decoded fun _ => true,
        .emit]).map (fun stream => (stream.emitted, stream.group.committed orders, stream.acked)) =
    some ([(⟨orders, 0⟩, 1)], 2, []) := by
  decide

end KrabkaGateway.Consume.Subscription
