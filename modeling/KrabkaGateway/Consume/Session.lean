import KrabkaGateway.Types
import KrabkaGateway.Lib.Update
import KrabkaGateway.Consume.AckState

/-!
# The consume session's books

The acknowledgement tracker of `ConsumeSession` and the two maps that
`subscribe_inner` keeps beside it. The session drops the tracker of a
partition it does not own when it commits; the stream's own maps survive that.
-/

namespace KrabkaGateway.Consume

open Lib

/-- A topic and a partition index. -/
abbrev TopicPartition := String × Int

/-- The coordinate of one record. -/
@[ext]
structure Coordinate where
  key : TopicPartition
  offset : Int
  deriving DecidableEq, Repr

/-- `ConsumeSession::ack_tracker`. -/
abbrev AckTracker := TopicPartition → Option PartitionAckState

/-- `HashMap::entry(key).or_default()`. -/
def AckTracker.entry (tracker : AckTracker) (key : TopicPartition) : PartitionAckState :=
  (tracker key).getD {}

/-- Update one partition's state; the entry is there afterwards, also when the
update failed. -/
def AckTracker.update
    (operation : PartitionAckState → Int → Except Unit Unit × PartitionAckState)
    (tracker : AckTracker) (record : Coordinate) : Except GatewayError Unit × AckTracker :=
  if record.key.2 < 0 ∨ record.offset < 0 then (.ok (), tracker)
  else
    let (result, state) := operation (tracker.entry record.key) record.offset
    (result.mapError fun _ =>
        .tooManyUnacked record.key.1 record.key.2 record.offset,
      set tracker record.key (some state))

/-- `ConsumeSession::record_delivery`. -/
def AckTracker.recordDelivery : AckTracker → Coordinate → Except GatewayError Unit × AckTracker :=
  AckTracker.update PartitionAckState.recordDelivery

/-- `ConsumeSession::record_ack`. -/
def AckTracker.recordAck : AckTracker → Coordinate → Except GatewayError Unit × AckTracker :=
  AckTracker.update PartitionAckState.recordAck

/-- `ConsumeSession::ack_frontier`. -/
def AckTracker.ackFrontier (tracker : AckTracker) (key : TopicPartition) : Option Int :=
  (tracker key).bind PartitionAckState.frontier

def AckTracker.retain (tracker : AckTracker) (owned : TopicPartition → Bool) : AckTracker :=
  fun key => if owned key then tracker key else none

/-- `ConsumeSession::acked_offsets`. -/
def AckTracker.ackedOffsets (tracker : AckTracker) (key : TopicPartition) : Option Int :=
  (tracker key).bind PartitionAckState.commitValue

def AckTracker.recordCommit (tracker : AckTracker)
    (offsets : TopicPartition → Option Int) : AckTracker :=
  fun key =>
    match offsets key with
    | none => tracker key
    | some next => (tracker key).map fun state => state.recordCommit next

/-- The session's tracker with the stream's delivered and acknowledged maps.
An absent entry of `DeliveredOffsets` is an empty set. -/
structure Books where
  tracker : AckTracker
  delivered : TopicPartition → OrdSet Int
  acknowledged : TopicPartition → Option Int

/-- The books of a stream that has polled nothing. -/
def Books.new : Books where
  tracker := fun _ => none
  delivered := fun _ => ∅
  acknowledged := fun _ => none

/-- What `validate_ack` answers to an acknowledgement. -/
inductive AckCheck where
  /-- `Ok(true)`. -/
  | fresh
  /-- `Ok(false)`. -/
  | repeated
  /-- The offset was not delivered. -/
  | invalid (message : String)
  deriving DecidableEq, Repr

def Books.validateAck (books : Books) (record : Coordinate) : AckCheck :=
  if (books.acknowledged record.key).any fun previous => record.offset ≤ previous then .repeated
  else if record.offset < 0 ∨ record.offset ∉ books.delivered record.key then
    .invalid ("Ack targets a record that was not delivered: " ++ record.key.1 ++ "-" ++
      toString record.key.2 ++ "@" ++ toString record.offset)
  else .fresh

/-- The pruning loop of `mark_acknowledged`, with the number of offsets it
looked at. The list is what is left of the partition's delivered offsets. -/
def pruneFrom (frontier : Int) : List Int → OrdSet Int → Nat × OrdSet Int
  | [], offsets => (0, offsets)
  | next :: rest, offsets =>
    if frontier < next then (1, offsets)
    else
      let (inspected, left) := pruneFrom frontier rest offsets.popFirst
      (inspected + 1, left)

def Books.markAcknowledged (books : Books) (key : TopicPartition) (frontier : Int) : Nat × Books :=
  if (books.acknowledged key).any fun previous => frontier ≤ previous then (0, books)
  else
    let (inspected, left) := pruneFrom frontier (books.delivered key).elems (books.delivered key)
    (inspected,
      { books with
        acknowledged := set books.acknowledged key (some frontier)
        delivered := set books.delivered key left })

/-- One turn of the acknowledgement loop of `subscribe_inner`. -/
def Books.acknowledge (books : Books) (record : Coordinate) : Except GatewayError Unit × Books :=
  match books.tracker.recordAck record with
  | (.error error, tracker) => (.error error, { books with tracker := tracker })
  | (.ok (), tracker) =>
    let books := { books with tracker := tracker }
    match books.tracker.ackFrontier record.key with
    | none => (.ok (), books)
    | some frontier => (.ok (), (books.markAcknowledged record.key frontier).2)

/-- The acknowledgement loop, which an error ends. -/
def Books.acknowledgeAll : Books → List Coordinate → Except GatewayError Unit × Books
  | books, [] => (.ok (), books)
  | books, record :: rest =>
    match books.acknowledge record with
    | (.error error, books) => (.error error, books)
    | (.ok (), books) => books.acknowledgeAll rest

/-- Register a polled batch with the session, up to the first error. -/
def AckTracker.recordDeliveries :
    AckTracker → List Coordinate → Except GatewayError Unit × AckTracker
  | tracker, [] => (.ok (), tracker)
  | tracker, record :: rest =>
    match tracker.recordDelivery record with
    | (.error error, tracker) => (.error error, tracker)
    | (.ok (), tracker) => tracker.recordDeliveries rest

/-- Add the records that go to the client to the stream's delivered map. -/
def Books.deliver (books : Books) (records : List Coordinate) : Books :=
  { books with
    delivered := records.foldl
      (fun delivered record =>
        set delivered record.key ((delivered record.key).insert record.offset))
      books.delivered }

/-! ## What the tracker's operations keep -/

/-- A coordinate that Kafka can give a record. The session ignores others. -/
def Coordinate.Valid (record : Coordinate) : Prop :=
  0 ≤ record.key.2 ∧ 0 ≤ record.offset

namespace AckTracker

variable {operation : PartitionAckState → Int → Except Unit Unit × PartitionAckState}
  {record : Coordinate}

theorem update_of_valid {tracker : AckTracker} (valid : record.Valid) :
    (tracker.update operation record).2 =
      set tracker record.key (some (operation (tracker.entry record.key) record.offset).2) := by
  obtain ⟨partition, offset⟩ := valid
  simp [update, not_lt.mpr partition, not_lt.mpr offset]

theorem update_ok_of_valid {tracker : AckTracker} (valid : record.Valid)
    (accepted : (tracker.update operation record).1 = .ok ()) :
    (operation (tracker.entry record.key) record.offset).1 = .ok () := by
  obtain ⟨partition, offset⟩ := valid
  simp only [update, not_lt.mpr partition, not_lt.mpr offset, or_self, if_false] at accepted
  cases result : (operation (tracker.entry record.key) record.offset).1 with
  | error _ => simp [result, Except.mapError] at accepted
  | ok _ => rfl

theorem update_of_not_valid {tracker : AckTracker} (invalid : ¬ record.Valid) :
    tracker.update operation record = (.ok (), tracker) := by
  have ignored : record.key.2 < 0 ∨ record.offset < 0 := by
    simpa [Coordinate.Valid, -not_and, not_and_or] using invalid
  simp [update, ignored]

variable {key : TopicPartition}

theorem update_other {tracker : AckTracker} (different : key ≠ record.key) :
    (tracker.update operation record).2 key = tracker key := by
  by_cases valid : record.Valid
  · rw [update_of_valid valid, set_ne _ _ different]
  · rw [update_of_not_valid valid]

variable {state : PartitionAckState}

theorem update_entry {tracker : AckTracker}
    (found : (tracker.update operation record).2 record.key = some state) :
    tracker record.key = some state ∨
      state = (operation (tracker.entry record.key) record.offset).2 := by
  by_cases valid : record.Valid
  · rw [update_of_valid valid, set_self] at found
    exact Or.inr (Option.some.inj found).symm
  · rw [update_of_not_valid valid] at found
    exact Or.inl found

theorem entry_update {tracker : AckTracker} (key : TopicPartition) :
    (tracker.update operation record).2.entry key = tracker.entry key ∨
      key = record.key ∧ (tracker.update operation record).2.entry key =
        (operation (tracker.entry key) record.offset).2 := by
  by_cases valid : record.Valid
  · by_cases same : key = record.key
    · exact Or.inr ⟨same, by rw [update_of_valid valid, same]; simp [entry]⟩
    · exact Or.inl (by rw [update_of_valid valid]; simp [entry, same])
  · exact Or.inl (by rw [update_of_not_valid valid])

theorem entry_recordDelivery (tracker : AckTracker) (delivery : Coordinate)
    (key : TopicPartition) :
    (tracker.recordDelivery delivery).2.entry key = tracker.entry key ∨
      key = delivery.key ∧ (tracker.recordDelivery delivery).2.entry key =
        ((tracker.entry key).recordDelivery delivery.offset).2 :=
  entry_update key

theorem entry_recordAck (tracker : AckTracker) (ack : Coordinate) (key : TopicPartition) :
    (tracker.recordAck ack).2.entry key = tracker.entry key ∨
      key = ack.key ∧ (tracker.recordAck ack).2.entry key =
        ((tracker.entry key).recordAck ack.offset).2 :=
  entry_update key

theorem entry_property {tracker : AckTracker} {property : PartitionAckState → Prop}
    (untouched : property {}) (entries : ∀ state, tracker key = some state → property state) :
    property (tracker.entry key) := by
  cases found : tracker key with
  | none => simpa [entry, found] using untouched
  | some state => simpa [entry, found] using entries state found

theorem update_preserves {tracker : AckTracker}
    {property : TopicPartition → PartitionAckState → Prop} (untouched : ∀ key, property key {})
    (preserved : ∀ state, property record.key state →
      property record.key (operation state record.offset).2)
    (entries : ∀ key state, tracker key = some state → property key state) :
    ∀ key state, (tracker.update operation record).2 key = some state → property key state := by
  intro key state found
  by_cases same : key = record.key
  · subst same
    rcases update_entry found with unchanged | rfl
    · exact entries _ _ unchanged
    · exact preserved _ (entry_property (untouched _) (entries _))
  · rw [update_other same] at found
    exact entries _ _ found

/-- Every partition is well formed, and only acknowledged or filtered records
(`done`) wait for the frontier. -/
structure Sound (done : Coordinate → Prop) (tracker : AckTracker) : Prop where
  wellFormed : ∀ key state, tracker key = some state → state.WellFormed
  pendingDone : ∀ key state, tracker key = some state →
    ∀ offset ∈ state.pending, done ⟨key, offset⟩

/-- The tracker still waits for the record, or the record is done and the
frontier passed it. -/
def Accounted (done : Coordinate → Prop) (tracker : AckTracker) (record : Coordinate) : Prop :=
  ∃ state, tracker record.key = some state ∧
    (record.offset ∈ state.delivered ∨ state.reached record.offset = true ∧ done record)

variable {done : Coordinate → Prop} {tracker : AckTracker}

variable {wider : Coordinate → Prop}

theorem Sound.mono (sound : tracker.Sound done) (weaker : ∀ record, done record → wider record) :
    tracker.Sound wider :=
  ⟨sound.wellFormed, fun key state found offset waiting =>
    weaker _ (sound.pendingDone key state found offset waiting)⟩

theorem Accounted.mono (accounted : tracker.Accounted done record)
    (weaker : ∀ record, done record → wider record) : tracker.Accounted wider record := by
  obtain ⟨state, found, waiting | ⟨reached, isDone⟩⟩ := accounted
  · exact ⟨state, found, Or.inl waiting⟩
  · exact ⟨state, found, Or.inr ⟨reached, weaker _ isDone⟩⟩

/-- A record that is accounted for and not above the frontier is done. -/
theorem Sound.done_of_reached (sound : tracker.Sound done)
    (accounted : tracker.Accounted done record)
    (reached : (tracker.entry record.key).reached record.offset = true) : done record := by
  obtain ⟨state, found, waiting | ⟨_, isDone⟩⟩ := accounted
  · rw [AckTracker.entry, found, Option.getD_some] at reached
    obtain ⟨frontier, tracked, bound⟩ := PartitionAckState.reached_iff.mp reached
    have above := (sound.wellFormed _ _ found).above frontier tracked _ waiting
    omega
  · exact isDone

theorem Sound.recordDelivery (sound : tracker.Sound done) (record : Coordinate) :
    (tracker.recordDelivery record).2.Sound done where
  wellFormed := update_preserves (fun _ => PartitionAckState.wellFormed_default)
    (fun _ wellFormed => PartitionAckState.wellFormed_recordDelivery wellFormed _)
    sound.wellFormed
  pendingDone := update_preserves (by simp)
    (fun state pendingDone offset waiting => by
      rw [(state.registers_recordDelivery record.offset).pending] at waiting
      exact pendingDone offset waiting)
    sound.pendingDone

theorem Sound.recordAck (sound : tracker.Sound done) (isDone : done record) :
    (tracker.recordAck record).2.Sound done := by
  have both : ∀ key state, (tracker.recordAck record).2 key = some state →
      state.WellFormed ∧ ∀ offset ∈ state.pending, done ⟨key, offset⟩ := by
    refine update_preserves (fun _ => ⟨PartitionAckState.wellFormed_default, by simp⟩) ?_
      fun key state found => ⟨sound.wellFormed key state found, sound.pendingDone key state found⟩
    rintro state ⟨wellFormed, pendingDone⟩
    refine ⟨PartitionAckState.wellFormed_recordAck wellFormed _, ?_⟩
    intro offset waiting
    have acknowledges := PartitionAckState.acknowledges_recordAck wellFormed record.offset
    rcases acknowledges.pending offset waiting with before | rfl
    · exact pendingDone offset before
    · exact isDone
  exact ⟨fun key state found => (both key state found).1,
    fun key state found => (both key state found).2⟩

theorem Sound.entry (sound : tracker.Sound done) (key : TopicPartition) :
    (tracker.entry key).WellFormed :=
  entry_property PartitionAckState.wellFormed_default (sound.wellFormed key)

theorem Accounted.recordDelivery (accounted : tracker.Accounted done record)
    (delivery : Coordinate) : (tracker.recordDelivery delivery).2.Accounted done record := by
  obtain ⟨state, found, cases⟩ := accounted
  by_cases valid : delivery.Valid
  · by_cases same : record.key = delivery.key
    · have registers := state.registers_recordDelivery delivery.offset
      refine ⟨(state.recordDelivery delivery.offset).2, ?_, ?_⟩
      · rw [AckTracker.recordDelivery, update_of_valid valid, same, set_self]
        simp [AckTracker.entry, ← same, found]
      · rcases cases with waiting | ⟨reached, isDone⟩
        · exact Or.inl (registers.kept _ waiting)
        · refine Or.inr ⟨?_, isDone⟩
          rcases registers.frontier with unchanged | ⟨unseeded, _⟩
          · rwa [PartitionAckState.reached, unchanged]
          · simp [PartitionAckState.reached, unseeded] at reached
    · exact ⟨state, by rw [AckTracker.recordDelivery, update_other same, found], cases⟩
  · rw [AckTracker.recordDelivery, update_of_not_valid valid]
    exact ⟨state, found, cases⟩

theorem Accounted.recordAck (accounted : tracker.Accounted done record) (sound : tracker.Sound done)
    {ack : Coordinate} (isDone : done ack) : (tracker.recordAck ack).2.Accounted done record := by
  obtain ⟨state, found, cases⟩ := accounted
  by_cases valid : ack.Valid
  · by_cases same : record.key = ack.key
    · have acknowledges := PartitionAckState.acknowledges_recordAck
        (sound.wellFormed _ _ found) ack.offset
      refine ⟨(state.recordAck ack.offset).2, ?_, ?_⟩
      · rw [AckTracker.recordAck, update_of_valid valid, same, set_self]
        simp [AckTracker.entry, ← same, found]
      · rcases cases with waiting | ⟨reached, recordDone⟩
        · by_cases stays : record.offset ∈ (state.recordAck ack.offset).2.delivered
          · exact Or.inl stays
          · obtain ⟨pending | sameOffset, reached⟩ := acknowledges.passed _ waiting stays
            · exact Or.inr ⟨reached, sound.pendingDone _ _ found _ pending⟩
            · have record_eq : record = ack := Coordinate.ext same sameOffset
              exact Or.inr ⟨reached, record_eq ▸ isDone⟩
        · exact Or.inr ⟨acknowledges.reached _ reached, recordDone⟩
    · exact ⟨state, by rw [AckTracker.recordAck, update_other same, found], cases⟩
  · rw [AckTracker.recordAck, update_of_not_valid valid]
    exact ⟨state, found, cases⟩

variable {batch : List Coordinate}

theorem recordDeliveries_preserves (property : AckTracker → Prop)
    (preserved : ∀ tracker, ∀ delivery ∈ batch, property tracker →
      property (tracker.recordDelivery delivery).2) {tracker : AckTracker}
    (before : property tracker) : property (tracker.recordDeliveries batch).2 := by
  induction batch generalizing tracker with
  | nil => exact before
  | cons delivery rest ih =>
    unfold recordDeliveries
    have once := preserved tracker delivery List.mem_cons_self before
    split
    next result => simpa [result] using once
    next result =>
      rw [result] at once
      exact ih
        (fun tracker other inside => preserved tracker other (List.mem_cons_of_mem _ inside)) once

theorem Accounted.recordDeliveries (accounted : tracker.Accounted done record)
    (batch : List Coordinate) : (tracker.recordDeliveries batch).2.Accounted done record :=
  recordDeliveries_preserves (fun tracker => tracker.Accounted done record)
    (fun _ delivery _ accounted => accounted.recordDelivery delivery) accounted

theorem commitValue_recordDeliveries (tracker : AckTracker) (batch : List Coordinate)
    (key : TopicPartition) :
    ((tracker.recordDeliveries batch).2.entry key).commitValue =
      (tracker.entry key).commitValue := by
  refine recordDeliveries_preserves
    (fun after => (after.entry key).commitValue = (tracker.entry key).commitValue) ?_ rfl
  intro after delivery _ before
  rcases after.entry_recordDelivery delivery key with unchanged | ⟨_, result⟩
  · rw [unchanged, before]
  · rw [result, ((after.entry key).registers_recordDelivery delivery.offset).commitValue, before]

theorem Sound.recordDeliveries (sound : tracker.Sound done) (batch : List Coordinate) :
    (tracker.recordDeliveries batch).2.Sound done :=
  recordDeliveries_preserves (fun tracker => tracker.Sound done)
    (fun _ delivery _ sound => sound.recordDelivery delivery) sound

/-- The records of one partition come in the order of their offsets. -/
def Ascending (batch : List Coordinate) : Prop :=
  batch.Pairwise fun earlier later => earlier.key = later.key → earlier.offset < later.offset

/-- Once a batch is registered, each of its records waits, unless the frontier
had reached the record before the batch came. -/
theorem recordDeliveries_ok {tracker after : AckTracker} (valid : ∀ record ∈ batch, record.Valid)
    (ascending : Ascending batch) (accepted : tracker.recordDeliveries batch = (.ok (), after)) :
    ∀ record ∈ batch, (∃ state, after record.key = some state ∧ record.offset ∈ state.delivered) ∨
      ∃ state, tracker record.key = some state ∧ state.reached record.offset = true := by
  induction batch generalizing tracker with
  | nil => simp
  | cons delivery rest ih =>
    unfold recordDeliveries at accepted
    split at accepted
    next => simp at accepted
    next middle result =>
      obtain ⟨headAscending, restAscending⟩ := List.pairwise_cons.mp ascending
      have deliveryValid := valid delivery List.mem_cons_self
      have middle_eq : middle = (tracker.recordDelivery delivery).2 := by rw [result]
      have entry_eq : middle delivery.key =
          some ((tracker.entry delivery.key).recordDelivery delivery.offset).2 := by
        rw [middle_eq, AckTracker.recordDelivery, update_of_valid deliveryValid, set_self]
      have registers := (tracker.entry delivery.key).registers_recordDelivery delivery.offset
      have reachedBefore : ∀ offset,
          (tracker.entry delivery.key).reached offset = true →
          ∃ state, tracker delivery.key = some state ∧ state.reached offset = true := by
        intro offset reached
        cases found : tracker delivery.key with
        | none => simp [AckTracker.entry, found, PartitionAckState.reached] at reached
        | some state => exact ⟨state, rfl, by simpa [AckTracker.entry, found] using reached⟩
      intro record membership
      rcases List.mem_cons.mp membership with rfl | inRest
      · have ok : (tracker.recordDelivery record).1 = .ok () := by rw [result]
        rcases PartitionAckState.recordDelivery_ok (update_ok_of_valid deliveryValid ok) with
          waits | reached
        · -- Later deliveries do not remove it.
          left
          have waitsNow : middle.Accounted (fun _ => False) record :=
            ⟨_, entry_eq, Or.inl waits⟩
          have stays := waitsNow.recordDeliveries rest
          rw [accepted] at stays
          obtain ⟨state, found, waiting | ⟨_, impossible⟩⟩ := stays
          · exact ⟨state, found, waiting⟩
          · exact impossible.elim
        · exact Or.inr (reachedBefore _ reached)
      · rcases ih (fun other inside => valid other (List.mem_cons_of_mem _ inside))
          restAscending accepted record inRest with waits | ⟨state, found, reached⟩
        · exact Or.inl waits
        · right
          by_cases same : record.key = delivery.key
          · rw [same, entry_eq] at found
            cases found
            rw [same]
            apply reachedBefore
            rcases registers.frontier with unchanged | ⟨_, seeded, _⟩
            · rwa [PartitionAckState.reached, unchanged] at reached
            · -- The seed lies below `delivery`, and `record` lies above it.
              obtain ⟨frontier, tracked, bound⟩ := PartitionAckState.reached_iff.mp reached
              rw [seeded] at tracked
              cases tracked
              have later := headAscending record inRest same.symm
              omega
          · refine ⟨state, ?_, reached⟩
            rwa [middle_eq, AckTracker.recordDelivery, update_other same] at found

variable {owned : TopicPartition → Bool}

theorem retain_eq_some :
    tracker.retain owned key = some state ↔ owned key = true ∧ tracker key = some state := by
  simp [retain]

theorem Sound.retain (sound : tracker.Sound done) (owned : TopicPartition → Bool) :
    (tracker.retain owned).Sound done :=
  ⟨fun key state found => sound.wellFormed key state (retain_eq_some.mp found).2,
    fun key state found => sound.pendingDone key state (retain_eq_some.mp found).2⟩

theorem Accounted.retain (accounted : tracker.Accounted done record)
    (isOwned : owned record.key = true) : (tracker.retain owned).Accounted done record := by
  obtain ⟨state, found, cases⟩ := accounted
  exact ⟨state, retain_eq_some.mpr ⟨isOwned, found⟩, cases⟩

theorem entry_retain (tracker : AckTracker) (owned : TopicPartition → Bool) (key : TopicPartition) :
    (tracker.retain owned).entry key = if owned key then tracker.entry key else {} := by
  cases held : owned key <;> simp [entry, retain, held]

theorem commitValue_of_ackedOffsets {next : Int} (sent : tracker.ackedOffsets key = some next) :
    (tracker.entry key).commitValue = some next := by
  obtain ⟨state, found, value⟩ := Option.bind_eq_some_iff.mp sent
  rwa [entry, found]

theorem recordCommit_eq_some {after : PartitionAckState} :
    tracker.recordCommit tracker.ackedOffsets key = some after ↔
      ∃ state, tracker key = some state ∧
        (state.commitValue = none ∧ after = state ∨
          ∃ next, state.commitValue = some next ∧ after = state.recordCommit next) := by
  cases found : tracker key with
  | none => simp [recordCommit, ackedOffsets, found]
  | some state =>
    cases value : state.commitValue with
    | none | some => simp [recordCommit, ackedOffsets, found, value, eq_comm]

theorem entry_recordCommit (tracker : AckTracker) (key : TopicPartition) :
    ((tracker.entry key).commitValue = none ∧
        (tracker.recordCommit tracker.ackedOffsets).entry key = tracker.entry key) ∨
      ∃ next, (tracker.entry key).commitValue = some next ∧
        (tracker.recordCommit tracker.ackedOffsets).entry key =
          (tracker.entry key).recordCommit next := by
  cases found : tracker key with
  | none =>
    left
    constructor
    · simp [entry, found, PartitionAckState.commitValue]
    · simp [entry, recordCommit, ackedOffsets, found]
  | some state =>
    cases value : state.commitValue with
    | none => exact Or.inl (by simp [entry, recordCommit, ackedOffsets, found, value])
    | some next =>
      exact Or.inr ⟨next, by simp [entry, recordCommit, ackedOffsets, found, value]⟩

theorem Sound.recordCommit (sound : tracker.Sound done) :
    (tracker.recordCommit tracker.ackedOffsets).Sound done := by
  constructor
  · intro key after committed
    obtain ⟨state, found, ⟨_, rfl⟩ | ⟨next, value, rfl⟩⟩ := recordCommit_eq_some.mp committed
    · exact sound.wellFormed key _ found
    · exact PartitionAckState.wellFormed_recordCommit (sound.wellFormed key state found) value
  · intro key after committed
    obtain ⟨state, found, ⟨_, rfl⟩ | ⟨next, _, rfl⟩⟩ := recordCommit_eq_some.mp committed
    · exact sound.pendingDone key _ found
    · exact sound.pendingDone key state found

theorem Accounted.recordCommit (accounted : tracker.Accounted done record) :
    (tracker.recordCommit tracker.ackedOffsets).Accounted done record := by
  obtain ⟨state, found, cases⟩ := accounted
  cases value : state.commitValue with
  | none => exact ⟨state, recordCommit_eq_some.mpr ⟨state, found, Or.inl ⟨value, rfl⟩⟩, cases⟩
  | some next =>
    exact ⟨state.recordCommit next,
      recordCommit_eq_some.mpr ⟨state, found, Or.inr ⟨next, value, rfl⟩⟩, cases⟩

end AckTracker

namespace Books

@[simp]
theorem markAcknowledged_tracker (books : Books) (key : TopicPartition) (frontier : Int) :
    (books.markAcknowledged key frontier).2.tracker = books.tracker := by
  unfold markAcknowledged
  split <;> rfl

theorem acknowledge_tracker (books : Books) (record : Coordinate) :
    (books.acknowledge record).2.tracker = (books.tracker.recordAck record).2 := by
  unfold acknowledge
  split
  next result => simp [result]
  next result =>
    rw [result]
    dsimp only
    split <;> simp

/-- A property of trackers that each acknowledgement keeps holds after the
acknowledgement loop, also when an error ends it. -/
theorem acknowledgeAll_preserves (property : AckTracker → Prop) {records : List Coordinate}
    (preserved : ∀ tracker, ∀ record ∈ records, property tracker →
      property (tracker.recordAck record).2)
    {books : Books} (before : property books.tracker) :
    property (books.acknowledgeAll records).2.tracker := by
  induction records generalizing books with
  | nil => exact before
  | cons record rest ih =>
    have once := preserved books.tracker record List.mem_cons_self before
    rw [← acknowledge_tracker] at once
    unfold acknowledgeAll
    split
    next result => simpa [result] using once
    next result =>
      rw [result] at once
      exact ih
        (fun tracker other inside => preserved tracker other (List.mem_cons_of_mem _ inside)) once

@[simp]
theorem deliver_tracker (books : Books) (records : List Coordinate) :
    (books.deliver records).tracker = books.tracker := rfl

end Books

end KrabkaGateway.Consume
