import KrabkaGateway.Dedup.WarmGate

/-!
# One data record per retained claim

A data record is committed together with the claim of its key. Over any number of
replicas this happens only for keys without a live claim, if a producer is opened lazily
only by the replica that opened it last, and if the look-up under the lock happens while
the replica still owns the partition and is warm. Without either of the two a key gets a
second record.
-/

namespace KrabkaGateway.Dedup

open Lib Lib.ClaimLog Lib.FencedLog

variable {setup : Setup} {state after : State} {action : Action}

/-- A step commits no data record, or one whose key has no live claim before the step and has one
after it. -/
def CommitsOnce (setup : Setup) (state after : State) : Prop :=
  after.records = state.records ∨ ∃ record, after.records = state.records ++ [record] ∧
    latest (state.shards (setup.partitionOf record.idempotencyKey)).claims.log
      record.idempotencyKey = none ∧
    latest (after.shards (setup.partitionOf record.idempotencyKey)).claims.log
      record.idempotencyKey = some ⟨record.topic, record.partition, record.offset⟩

/-- The two look-ups of `dedup_produce` that the ownership loop and the other replicas must not
interfere with. -/
def Undisturbed (setup : Setup) (state : State) : Action → Bool
  | .opened r call none =>
    match (state.replicas r).calls call with
    | .running _ key _ => (state.shards (setup.partitionOf key)).claims.writer == some r
    | _ => true
  | .check r call =>
    match (state.replicas r).calls call with
    | .running _ key .recheck =>
      (state.replicas r).owns (setup.partitionOf key) && (state.replicas r).isWarm
    | _ => true
  | _ => true

theorem fair_disciplined (orderly : ∀ r, Orderly (state.replicas r))
    (undisturbed : Undisturbed setup state action = true) (r p : Nat) :
    Fair (Disciplined r) setup state action r p where
  plain := fun _ _ _ other another =>
    ⟨fun reopens => absurd reopens other, fun misses => absurd misses another⟩
  reopen := by
    rintro call record key stage rfl here rfl
    refine ⟨fun _ => ?_, by rintro ⟨⟩⟩
    simpa [Undisturbed, here.running] using undisturbed
  miss := by
    rintro call record key rfl here rfl
    refine ⟨by rintro ⟨⟩, fun _ => ?_⟩
    simp only [Undisturbed, here.running, Bool.and_eq_true] at undisturbed
    obtain ⟨owns, isWarm⟩ := undisturbed
    have warm : (state.replicas r).warm = true := (Bool.and_eq_true _ _ ▸ isWarm).1
    exact (orderly r).ready warm _ (List.contains_iff_mem.mp owns)

/-! ## The invariant -/

structure Exclusive (setup : Setup) (state : State) : Prop where
  sound : Sound setup state
  backed : Backed (fun _ _ => True) state
  known : ∀ r p, Known r (state.shards p).claims ((state.replicas r).view setup p)
  claimable : ∀ r p, Claimable r (state.shards p).claims ((state.replicas r).view setup p)

theorem exclusive_initial : Exclusive setup State.initial where
  sound := sound_initial
  backed := backed_initial _
  known := fun _ _ => .of_status (Or.inl rfl)
  claimable := fun _ _ => ⟨by rintro ⟨⟩, by rintro ⟨⟩, by rintro key sent ⟨⟩⟩

namespace Exclusive

theorem step (exclusive : Exclusive setup state)
    (undisturbed : Undisturbed setup state action = true)
    (taken : state.step setup action = some after) : Exclusive setup after := by
  have event := event_of_step taken
  have sound := exclusive.sound
  obtain ⟨actor, moves⟩ := simulated sound.guarded sound.filed event
  have fair := fair_disciplined (fun r => (sound.guarded r).orderly) undisturbed actor
  have suits : action.Fits fun _ _ => True := by
    cases action <;> first | trivial | exact fun _ _ => trivial
  refine ⟨sound.step taken, exclusive.backed.of_event sound event suits, ?_, ?_⟩
  · intro r p
    by_cases same : r = actor
    · subst same
      refine ((moves.step (fair p)).mono ?_).known (sound.sane r p) (exclusive.known r p)
      exact fun kind disciplined reopens _ => disciplined.reopens reopens
    · rw [moves.others r same]
      exact (moves.step (fair p)).known_other (sound.sane actor p) same (exclusive.known r p)
  · intro r p
    by_cases same : r = actor
    · subst same
      exact (moves.step (fair p)).claimable (sound.sane r p) (exclusive.known r p)
        (exclusive.claimable r p)
    · rw [moves.others r same]
      exact (moves.step (fair p)).claimable_other (sound.sane actor p) same
        (exclusive.claimable r p)

/-- Only a commit that lands adds to the data records. -/
theorem commitsOnce (exclusive : Exclusive setup state) (event : Event setup state action after) :
    CommitsOnce setup state after := by
  cases event with
  | broker event =>
    cases event with
    | land sent =>
      rename_i q node key claim
      obtain ⟨draft, _⟩ := exclusive.backed.inflight q node key claim sent
      have home : setup.partitionOf key = q := exclusive.sound.filed.inflight q node key claim sent
      refine Or.inr ⟨dataRecord key claim, ?_, ?_, ?_⟩
      · simp [draft]
      · rw [show (dataRecord key claim).idempotencyKey = key from rfl, home]
        cases found : latest (state.shards q).claims.log key with
        | none => rfl
        | some value =>
          obtain ⟨index, live⟩ := exists_live_of_latest found
          exact absurd live ((exclusive.claimable node q).inflight key claim sent index value)
      · rw [show (dataRecord key claim).idempotencyKey = key from rfl, home]
        simp only [shards_setReplica, shards_setShard, set_self]
        exact latest_record _ _ _
    | _ => exact Or.inl rfl
  | call _ _ event | loop event => exact Or.inl (by cases event <;> rfl)
  | _ => exact Or.inl rfl

end Exclusive

/-! ## Every run -/

/-- If no step of a run is disturbed, each step commits at most one data record, and only for a key
without a live claim. -/
theorem record_committed_once_per_claim (setup : Setup) (actions : List Action)
    (undisturbed : Run.Along (State.step setup)
      (fun state action => Undisturbed setup state action = true) State.initial actions) :
    Run.Along (State.step setup)
      (fun state action => ∀ after, state.step setup action = some after →
        CommitsOnce setup state after) State.initial actions :=
  Run.along_of_invariant (Exclusive setup)
    (fun _ _ _ exclusive undisturbed taken => exclusive.step undisturbed taken)
    (fun _ _ exclusive _ _ taken => exclusive.commitsOnce (event_of_step taken))
    exclusive_initial undisturbed

/-- The replica takes the partition over and reads the one claim that is there. -/
def takeOver (r : Nat) : List Action :=
  [.assign r [0], .prepare r true, .measure r, .install r, .purge r, .fetch r 0, .deliver r,
    .process r, .settle r, .deliver r, .settle r]

theorem order_committed_once_per_claim :
    (∃ state, Run.exec (State.step oneShard) State.initial
        (warmUp 0 ++ produceCall 0 0 "orders" 7 ++ takeOver 1 ++ repeatCall 1 0 "orders") =
          some state) ∧
      Run.Along (State.step oneShard)
        (fun state action => ∀ after, state.step oneShard action = some after →
          CommitsOnce oneShard state after) State.initial
        (warmUp 0 ++ produceCall 0 0 "orders" 7 ++ takeOver 1 ++ repeatCall 1 0 "orders") :=
  ⟨⟨_, rfl⟩, record_committed_once_per_claim oneShard _ (by decide)⟩

/-- A call whose transaction is aborted, which leaves the slot without a producer. -/
def abortedCall (r call : Nat) : List Action :=
  [.start r call (orderRecord "orders"), .check r call, .check r call, .check r call,
    .acquire r call, .check r call, .check r call, .check r call, .check r call,
    .began r call none, .sentData r call (.error (.other "request timed out")),
      .aborted r call true]

def reopeningCall (r call : Nat) (offset : Int64) : List Action :=
  [.start r call (orderRecord "orders"), .check r call, .check r call, .check r call,
    .acquire r call, .check r call, .check r call, .check r call, .opened r call none,
    .began r call none, .sentData r call (.ok (0, offset)), .sentClaim r call none,
    .endTxn r call, .land 0, .committed r call]

/-- The first owner has lost the partition without having been told. -/
theorem order_committed_twice :
    ∃ state, Run.exec (State.step oneShard) State.initial
        (warmUp 0 ++ abortedCall 0 0 ++ warmUp 1 ++ produceCall 1 0 "orders" 7 ++
          reopeningCall 0 1 8) = some state ∧
      state.records = [⟨"order-7", "orders", 0, 7⟩, ⟨"order-7", "orders", 0, 8⟩] ∧
      (state.shards 0).claims.log =
        [⟨.claim "order-7" ⟨"orders", 0, 7⟩, false⟩, ⟨.claim "order-7" ⟨"orders", 0, 8⟩, false⟩] :=
  ⟨_, rfl, rfl, rfl⟩

/-- The partition is revoked and purged between the checks under the lock and the look-up. -/
example : ∃ state, Run.exec (State.step oneShard) State.initial
    (warmUp 0 ++ repeatCall 0 1 "orders" ++ produceCall 0 0 "orders" 7 ++
      ([.acquire 0 1, .check 0 1, .check 0 1, .revoke 0 [0], .purge 0, .check 0 1, .check 0 1,
        .began 0 1 none, .sentData 0 1 (.ok (0, 8)), .sentClaim 0 1 none, .endTxn 0 1, .land 0,
        .committed 0 1] : List Action)) = some state ∧
      state.records = [⟨"order-7", "orders", 0, 7⟩, ⟨"order-7", "orders", 0, 8⟩] :=
  ⟨_, rfl, rfl⟩

end KrabkaGateway.Dedup
