import KrabkaGateway.Dedup.Backing

/-!
# Outcomes of one replica agree

While a replica is ready for a partition and no other replica has opened the
partition's producer, what its claim map says of a key does not change any more. So all
calls that succeed with one key report one place, and only one of them wrote it.
-/

namespace KrabkaGateway.Dedup

open Lib Lib.ClaimLog Lib.FencedLog

variable {setup : Setup} {state after : State} {action : Action} {r p : Nat}

/-! ## How a step changes the calls of a replica -/

variable (setup : Setup) (state after : State) (r call : Nat) in
/-- What a step can make of a call. -/
inductive NewCall : Call → Prop where
  | started {record key} (keyed : record.idempotencyKey = some key) :
      NewCall (.running record key .checkOwner)
  | moved {record key stage next} (here : At setup state r call record key stage) :
      NewCall (.running record key next)
  | failed {record error} : NewCall (.done record (.error error))
  | cancelled : NewCall .cancelled
  | hit {record key stage claim} (here : At setup state r call record key stage)
      (found : (state.replicas r).map key = some claim) :
      NewCall (.done record (.ok (hit claim)))
  | fresh {record key claim} (here : At setup state r call record key (.committing claim))
      (stored : (after.replicas r).map key = some claim)
      (free : (after.replicas r).lock (setup.partitionOf key) = none) :
      NewCall (.done record (.ok ⟨claim.partition, claim.offset, false⟩))

theorem calls_fail (replica : Replica) (call partition : Nat) (record : GatewayRecord)
    (error : GatewayError) (restart : Bool) :
    (replica.fail call partition record error restart).calls =
      set replica.calls call (.done record (.error error)) := by
  cases restart <;> rfl

variable {call : Nat} {record : GatewayRecord}

theorem newCall_of_callEvent {key : String} {stage : Stage}
    (here : At setup state r call record key stage)
    (event : CallEvent setup state r call record key stage action after) :
    ∃ last, (after.replicas r).calls = set (state.replicas r).calls call last ∧
      NewCall setup state after r call last := by
  cases event with
  | refuseEarly | refuse =>
    rw [replicas_setReplica]
    exact ⟨_, rfl, .failed⟩
  | hitEarly found | hit found =>
    refine ⟨_, ?_, .hit here found⟩
    rw [replicas_setReplica]
    rfl
  | committed sent landed =>
    refine ⟨_, ?_, .fresh here ?_ ?_⟩
    · rw [replicas_setReplica]
      rfl
    · rw [replicas_setReplica]
      exact set_self _ _ _
    · rw [replicas_setReplica]
      exact set_self _ _ _
  | openFailed | beginFailed | abortFailed | abortConfirmed =>
    rw [replicas_setReplica]
    exact ⟨_, calls_fail _ _ _ _ _ _, .failed⟩
  | cancelWaiting | cancel =>
    rw [replicas_setReplica]
    exact ⟨_, rfl, .cancelled⟩
  | _ =>
    rw [replicas_setReplica]
    exact ⟨_, rfl, .moved here⟩

theorem calls_of_loopEvent (event : LoopEvent setup state r action after) :
    (after.replicas r).calls = (state.replicas r).calls := by
  cases event <;> rw [replicas_setReplica] <;> rfl

theorem newCall_of_event (event : Event setup state action after) (r : Nat) :
    (after.replicas r).calls = (state.replicas r).calls ∨
      ∃ call last, (after.replicas r).calls = set (state.replicas r).calls call last ∧
        NewCall setup state after r call last := by
  cases event with
  | keyless idle keyless =>
    rename_i actor call record
    by_cases same : r = actor
    · subst same
      rw [replicas_setReplica]
      exact Or.inr ⟨call, _, rfl, .failed⟩
    · exact Or.inl (congrArg Replica.calls (set_ne _ _ same))
  | start idle keyed =>
    rename_i actor call record key
    by_cases same : r = actor
    · subst same
      refine Or.inr ⟨call, _, ?_, .started keyed⟩
      rw [replicas_setReplica]
      rfl
    · exact Or.inl (congrArg Replica.calls (set_ne _ _ same))
  | call mine here event =>
    rename_i actor call record key stage
    by_cases same : r = actor
    · subst same
      exact Or.inr ⟨call, newCall_of_callEvent here event⟩
    · exact Or.inl (congrArg Replica.calls (others_of_callEvent event r same))
  | loop event =>
    rename_i actor
    by_cases same : r = actor
    · subst same
      exact Or.inl (calls_of_loopEvent event)
    · exact Or.inl (congrArg Replica.calls (others_of_loopEvent event r same))
  | broker event =>
    left
    cases event with
    | land sent =>
      rename_i q node key claim
      by_cases same : r = node
      · subst same
        simp only [State.setReplica, set_self]
      · exact congrArg Replica.calls (set_ne _ _ same)
    | _ => rfl

/-! ## Following a partition -/

/-- No other replica has opened the partition's producer since the replica got ready for it. -/
def StaysWriter (r p : Nat) (state : State) : Prop :=
  (state.replicas r).status p = .ready → (state.shards p).claims.writer = some r

/-- The replica has replayed the partition and is its writer. A replica that owns the partition
and is warm has replayed it. -/
structure Tenured (r p : Nat) (state : State) : Prop where
  ready : (state.replicas r).status p = .ready
  writer : (state.shards p).claims.writer = some r

instance (r p : Nat) (state : State) : Decidable (StaysWriter r p state) :=
  inferInstanceAs (Decidable (_ → _))

instance (r p : Nat) (state : State) : Decidable (Tenured r p state) :=
  decidable_of_iff ((state.replicas r).status p = .ready ∧ (state.shards p).claims.writer = some r)
    ⟨fun both => ⟨both.1, both.2⟩, fun tenured => ⟨tenured.ready, tenured.writer⟩⟩

/-- The partition is not assigned to the replica, or the replay of its assignment is still to
come. -/
def BeforeReplay (r p : Nat) (state : State) : Prop :=
  (state.replicas r).status p = .absent ∨ (state.replicas r).status p = .prepared

/-- The calls of a replica run with the keys of their records. -/
def Keyed (r : Nat) (state : State) : Prop :=
  ∀ call record key stage, (state.replicas r).calls call = .running record key stage →
    record.idempotencyKey = some key

theorem Keyed.step (keyed : Keyed r state) (event : Event setup state action after) :
    Keyed r after := by
  intro other record key stage running
  obtain same | ⟨call, last, calls, new⟩ := newCall_of_event event r
  · rw [same] at running
    exact keyed other record key stage running
  · rw [calls] at running
    by_cases mine : other = call
    · subst mine
      rw [set_self] at running
      cases new with
      | started given =>
        cases running
        exact given
      | moved here =>
        cases running
        exact keyed _ _ _ _ here.running
      | _ => cases running
    · rw [set_ne _ _ mine] at running
      exact keyed other record key stage running

structure Followed (setup : Setup) (r p : Nat) (state : State) : Prop where
  sound : Sound setup state
  known : Known r (state.shards p).claims ((state.replicas r).view setup p)
  kept : Kept r (state.shards p).claims ((state.replicas r).view setup p)
  keyed : Keyed r state

/-- Before its replay a partition is followed, whatever has happened to it. -/
theorem followed_of_beforeReplay (sound : Sound setup state) (keyed : Keyed r state)
    (away : BeforeReplay r p state) : Followed setup r p state := by
  refine ⟨sound, .of_status away, .of_status fun ready => ?_, keyed⟩
  obtain absent | prepared := away
  · cases ready.symm.trans absent
  · cases ready.symm.trans prepared

theorem fair_careful (stays : StaysWriter r p state) :
    Fair (Careful r) setup state action r p where
  plain := fun _ _ _ other _ reopens => absurd reopens other
  reopen := fun _ _ _ _ _ _ _ _ ready => stays ready
  miss := by rintro _ _ _ _ _ _ ⟨⟩

namespace Followed

theorem step (followed : Followed setup r p state) (stays : StaysWriter r p state)
    (taken : state.step setup action = some after) : Followed setup r p after := by
  have event := event_of_step taken
  have sound := followed.sound
  have sane := sound.sane r p
  refine ⟨sound.step taken, ?_, ?_, followed.keyed.step event⟩
  · obtain ⟨actor, moves⟩ := simulated sound.guarded sound.filed event
    by_cases same : r = actor
    · subst same
      exact (moves.step (fair_careful stays)).known sane followed.known
    · rw [moves.others r same]
      exact (moves.step (fair_trivial actor p)).known_other (sound.sane actor p) same followed.known
  · obtain ⟨actor, moves⟩ := simulated sound.guarded sound.filed event
    by_cases same : r = actor
    · subst same
      exact (moves.step (fair_careful stays)).kept sane followed.known followed.kept
    · rw [moves.others r same]
      exact (moves.step (fair_trivial actor p)).kept_other (sound.sane actor p) same followed.kept

variable {key : String} {claim : ClaimValue}

theorem map_step (followed : Followed setup r p state) (tenured : Tenured r p state)
    (event : Event setup state action after) (home : setup.partitionOf key = p)
    (cached : (state.replicas r).map key = some claim) :
    (after.replicas r).map key = some claim := by
  have sound := followed.sound
  obtain ⟨actor, moves⟩ := simulated sound.guarded sound.filed event
  by_cases same : r = actor
  · subst same
    rw [← view_cache home] at cached ⊢
    exact (moves.step (fair_trivial r p)).cache (sound.sane r p) followed.known followed.kept
      tenured.ready tenured.writer cached
  · rw [moves.others r same]
    exact cached

theorem committing_step (followed : Followed setup r p state) (tenured : Tenured r p state)
    (event : Event setup state action after) (home : setup.partitionOf key = p) {value : ClaimValue}
    (cached : (state.replicas r).map key = some claim)
    (begun : (after.replicas r).job p = some ⟨key, .committing value⟩) :
    (state.replicas r).job p = some ⟨key, .committing value⟩ := by
  have sound := followed.sound
  obtain ⟨actor, moves⟩ := simulated sound.guarded sound.filed event
  by_cases same : r = actor
  · subst same
    obtain before | writing := (moves.step (fair_trivial r p)).committing begun
    · exact before
    · have absent := (followed.kept tenured.ready tenured.writer).writing key writing
      rw [view_cache home] at absent
      cases absent.symm.trans cached
  · rw [moves.others r same] at begun
    exact begun

end Followed

/-! ## Agreement -/

/-- The outcomes of the calls that had not ended when the tenure began. -/
structure Agreed (setup : Setup) (r p : Nat) (ended : Nat → Prop) (state : State) : Prop where
  place : ∀ call record outcome key, ¬ ended call →
    (state.replicas r).calls call = .done record (.ok outcome) →
    record.idempotencyKey = some key → setup.partitionOf key = p →
      ∃ claim, (state.replicas r).map key = some claim ∧ claim.partition = outcome.partition ∧
        claim.offset = outcome.offset
  settled : ∀ call record outcome key, ¬ ended call →
    (state.replicas r).calls call = .done record (.ok outcome) →
    record.idempotencyKey = some key → setup.partitionOf key = p →
    outcome.deduplicated = false → ∀ claim,
      (state.replicas r).job p ≠ some ⟨key, .committing claim⟩
  fresh : ∀ first second record record' outcome outcome' key, ¬ ended first → ¬ ended second →
    (state.replicas r).calls first = .done record (.ok outcome) →
    (state.replicas r).calls second = .done record' (.ok outcome') →
    record.idempotencyKey = some key → record'.idempotencyKey = some key →
    setup.partitionOf key = p → outcome.deduplicated = false → outcome'.deduplicated = false →
      first = second

theorem agreed_start (start : State) :
    Agreed setup r p
      (fun call => ∃ record result, (start.replicas r).calls call = .done record result)
      start := by
  constructor
  · exact fun call record outcome key new answered => absurd ⟨record, _, answered⟩ new
  · exact fun call record outcome key new answered => absurd ⟨record, _, answered⟩ new
  · exact fun first second record _ outcome _ key new _ answered =>
      absurd ⟨record, _, answered⟩ new

/-- An answer after the step was there before, or it is a hit, or the answer to a commit. -/
inductive Answer (setup : Setup) (state after : State) (r call : Nat) (record : GatewayRecord)
    (outcome : RecordOutcome) : Prop where
  | old (answered : (state.replicas r).calls call = .done record (.ok outcome))
  | hit {key stage claim} (here : At setup state r call record key stage)
      (found : (state.replicas r).map key = some claim) (same : outcome = Dedup.hit claim)
  | fresh {key claim} (here : At setup state r call record key (.committing claim))
      (stored : (after.replicas r).map key = some claim)
      (free : (after.replicas r).lock (setup.partitionOf key) = none)
      (same : outcome = ⟨claim.partition, claim.offset, false⟩)

theorem answer_of_event (event : Event setup state action after) {outcome : RecordOutcome}
    (answered : (after.replicas r).calls call = .done record (.ok outcome)) :
    Answer setup state after r call record outcome := by
  obtain same | ⟨changed, last, calls, new⟩ := newCall_of_event event r
  · exact .old (same ▸ answered)
  · rw [calls] at answered
    by_cases mine : call = changed
    · subst mine
      rw [set_self] at answered
      cases new with
      | hit here found =>
        cases answered
        exact .hit here found rfl
      | fresh here stored free =>
        cases answered
        exact .fresh here stored free rfl
      | _ => cases answered
    · rw [set_ne _ _ mine] at answered
      exact .old answered

theorem Agreed.step {ended : Nat → Prop} (agreed : Agreed setup r p ended state)
    (followed : Followed setup r p state) (tenured : Tenured r p state)
    (event : Event setup state action after) : Agreed setup r p ended after := by
  -- The call that learns of its commit is the one that was committing.
  have committing : ∀ {call record key claim other}, At setup state r call record key
      (.committing claim) → record.idempotencyKey = some other → setup.partitionOf other = p →
        key = other ∧ (state.replicas r).job p = some ⟨other, .committing claim⟩ := by
    intro call record key claim other here keyed home
    obtain rfl : key = other :=
      Option.some.inj ((followed.keyed _ _ _ _ here.running).symm.trans keyed)
    have job := job_held (here.held rfl) here.running
    rw [home] at job
    exact ⟨rfl, job⟩
  constructor
  · intro call record outcome key new answered keyed home
    cases answer_of_event event answered with
    | old answered =>
      obtain ⟨claim, cached, rest⟩ := agreed.place call record outcome key new answered keyed home
      exact ⟨claim, followed.map_step tenured event home cached, rest⟩
    | hit here found same =>
      obtain rfl := Option.some.inj ((followed.keyed _ _ _ _ here.running).symm.trans keyed)
      subst same
      exact ⟨_, followed.map_step tenured event home found, rfl, rfl⟩
    | fresh here stored free same =>
      obtain rfl := Option.some.inj ((followed.keyed _ _ _ _ here.running).symm.trans keyed)
      subst same
      exact ⟨_, stored, rfl, rfl⟩
  · intro call record outcome key new answered keyed home wrote claim begun
    cases answer_of_event event answered with
    | old answered =>
      obtain ⟨known, cached, _⟩ := agreed.place call record outcome key new answered keyed home
      exact agreed.settled call record outcome key new answered keyed home wrote claim
        (followed.committing_step tenured event home cached begun)
    | hit here found same =>
      subst same
      cases wrote
    | fresh here stored free same =>
      obtain ⟨rfl, _⟩ := committing here keyed home
      subst home
      rw [job_free free] at begun
      cases begun
  · intro first second record record' outcome outcome' key newFirst newSecond answered answered'
      keyed keyed' home wrote wrote'
    cases answer_of_event event answered with
    | hit here found same =>
      subst same
      cases wrote
    | old old =>
      cases answer_of_event event answered' with
      | hit here found same =>
        subst same
        cases wrote'
      | old old' =>
        exact agreed.fresh first second record record' outcome outcome' key newFirst newSecond old
          old' keyed keyed' home wrote wrote'
      | fresh here stored free same =>
        exact absurd (committing here keyed' home).2
          (agreed.settled first record outcome key newFirst old keyed home wrote _)
    | fresh here stored free same =>
      cases answer_of_event event answered' with
      | hit here found same =>
        subst same
        cases wrote'
      | old old' =>
        exact absurd (committing here keyed home).2
          (agreed.settled second record' outcome' key newSecond old' keyed' home wrote' _)
      | fresh here' stored' free' same' =>
        -- Both held the lock of the partition.
        obtain ⟨rfl, _⟩ := committing here keyed home
        obtain ⟨rfl, _⟩ := committing here' keyed' home
        exact Option.some.inj ((here.held rfl).symm.trans (here'.held rfl))

/-! ## Every run -/

theorem followed_of_run (topic : ClaimTopic setup) {before since : List Action} {start : State}
    (arrived : Run.exec (State.step setup) (State.startingOn topic.log) before = some start)
    (away : BeforeReplay r p start)
    (stays : Run.Along (State.step setup) (fun state _ => StaysWriter r p state) start since)
    (run : Run.exec (State.step setup) start since = some state) : Followed setup r p state := by
  obtain ⟨sound, keyed⟩ :=
    Run.exec_preserves_always (fun state => Sound setup state ∧ Keyed r state)
    (fun _ _ _ both taken => ⟨both.1.step taken, both.2.step (event_of_step taken)⟩)
    ⟨sound_startingOn topic, by rintro call record key stage ⟨⟩⟩ arrived
  exact Run.exec_preserves (Followed setup r p)
    (fun _ _ _ followed stays taken => followed.step stays taken)
    (followed_of_beforeReplay sound keyed away) stays run

/-- A replica that is ready for a partition and keeps it answers all calls with one key alike, and
writes the record of the key at most once. -/
theorem outcomes_agree (setup : Setup) (r p : Nat) (before since tenure : List Action)
    {assigned start final : State}
    (reached : Run.exec (State.step setup) State.initial before = some assigned)
    (away : BeforeReplay r p assigned)
    (stays : Run.Along (State.step setup) (fun state _ => StaysWriter r p state) assigned since)
    (arrived : Run.exec (State.step setup) assigned since = some start)
    (tenured : Run.Along (State.step setup) (fun state _ => Tenured r p state) start tenure)
    (run : Run.exec (State.step setup) start tenure = some final)
    (first second : Nat) {record record' : GatewayRecord} {outcome outcome' : RecordOutcome}
    {key : String} (home : setup.partitionOf key = p)
    (new : ∀ record result, (start.replicas r).calls first ≠ .done record result)
    (new' : ∀ record result, (start.replicas r).calls second ≠ .done record result)
    (answered : (final.replicas r).calls first = .done record (.ok outcome))
    (answered' : (final.replicas r).calls second = .done record' (.ok outcome'))
    (keyed : record.idempotencyKey = some key) (keyed' : record'.idempotencyKey = some key) :
    outcome.partition = outcome'.partition ∧ outcome.offset = outcome'.offset ∧
      (outcome.deduplicated = false → outcome'.deduplicated = false → first = second) := by
  have followed := followed_of_run .empty reached away stays arrived
  obtain ⟨_, agreed⟩ := Run.exec_preserves
    (fun state => Followed setup r p state ∧ Agreed setup r p
      (fun call => ∃ record result, (start.replicas r).calls call = .done record result) state)
    (fun before action after invariant tenured taken =>
      ⟨invariant.1.step (fun _ => tenured.writer) taken,
        invariant.2.step invariant.1 tenured (event_of_step taken)⟩)
    ⟨followed, agreed_start start⟩ tenured run
  have isNew : ¬ ∃ record result, (start.replicas r).calls first = .done record result :=
    fun ⟨record, result, done⟩ => new record result done
  have isNew' : ¬ ∃ record result, (start.replicas r).calls second = .done record result :=
    fun ⟨record, result, done⟩ => new' record result done
  obtain ⟨claim, cached, partition, offset⟩ :=
    agreed.place first record outcome key isNew answered keyed home
  obtain ⟨claim', cached', partition', offset'⟩ :=
    agreed.place second record' outcome' key isNew' answered' keyed' home
  obtain rfl : claim = claim' := Option.some.inj (cached.symm.trans cached')
  exact ⟨partition.symm.trans partition', offset.symm.trans offset',
    agreed.fresh first second record record' outcome outcome' key isNew isNew' answered answered'
      keyed keyed' home⟩

/-- A call that looks the key up before another call commits it, and then has to wait. -/
def twoCalls : List Action :=
  [.start 0 1 (orderRecord "orders"), .check 0 1, .check 0 1, .check 0 1] ++
    produceCall 0 0 "orders" 7 ++ [.acquire 0 1, .check 0 1, .check 0 1, .check 0 1]

theorem concurrent_orders_agree :
    ∃ start final, Run.exec (State.step oneShard) State.initial (warmUp 0) = some start ∧
      Run.exec (State.step oneShard) start twoCalls = some final ∧
      (final.replicas 0).calls 0 = .done (orderRecord "orders") (.ok ⟨0, 7, false⟩) ∧
      (final.replicas 0).calls 1 = .done (orderRecord "orders") (.ok ⟨0, 7, true⟩) ∧
      (0 : Int32) = 0 ∧ (7 : Int64) = 7 ∧ (false = false → true = false → 0 = 1) :=
  ⟨_, _, rfl, rfl, rfl, rfl, outcomes_agree oneShard 0 0 [] (warmUp 0) twoCalls rfl
    (.inl rfl) (by decide) rfl (by decide) rfl 0 1 rfl (by rintro _ _ ⟨⟩) (by rintro _ _ ⟨⟩)
    rfl rfl rfl rfl⟩

end KrabkaGateway.Dedup
