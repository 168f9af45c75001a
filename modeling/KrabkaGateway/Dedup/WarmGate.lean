import KrabkaGateway.Dedup.Agreement

/-!
# The warm gate

A replica that owns a partition and is warm has every committed claim of the partition
in its map, as long as it is the partition's writer. The one exception is the claim of a
commit whose answer it has not got. A replica that has asked for a restart is never warm
again.
-/

namespace KrabkaGateway.Dedup

open Lib Lib.ClaimLog Lib.FencedLog

variable {setup : Setup} {state after : State} {action : Action} {r p : Nat}

/-! ## The restart latch -/

theorem restart_fail {replica : Replica} (required : replica.restartRequired = true)
    (call partition : Nat) (record : GatewayRecord) (error : GatewayError) (restart : Bool) :
    (replica.fail call partition record error restart).restartRequired = true := by
  cases restart with
  | false => exact required
  | true => rfl

theorem restart_of_event (event : Event setup state action after)
    (required : (state.replicas r).restartRequired = true) :
    (after.replicas r).restartRequired = true := by
  refine event.at_replica (motive := fun replica => replica.restartRequired = true) required
    (fun _ _ _ => required) ?_ ?_ fun _ => required
  · intro call record key stage _ _ event
    cases event with
    | openFailed | beginFailed | abortFailed | abortConfirmed =>
      rw [replicas_setReplica]
      exact restart_fail required _ _ _ _ _
    | _ =>
      rw [replicas_setReplica]
      exact required
  · intro event
    cases event <;> rw [replicas_setReplica] <;> exact required

theorem not_warm_after_restart {more : List Action} {later : State}
    (required : (state.replicas r).restartRequired = true)
    (run : Run.exec (State.step setup) state more = some later) :
    (later.replicas r).isWarm = false := by
  have latched : (later.replicas r).restartRequired = true :=
    Run.exec_preserves_always (fun state => (state.replicas r).restartRequired = true)
      (fun _ _ _ required taken => restart_of_event (event_of_step taken) required) required run
  rw [Replica.isWarm, latched]
  exact Bool.and_false _

/-! ## The claims of a warm partition -/

theorem Followed.cached_of_warm (followed : Followed setup r p state)
    (owns : (state.replicas r).owns p = true) (isWarm : (state.replicas r).isWarm = true)
    (writer : (state.shards p).claims.writer = some r) {key : String} {index : Nat}
    {claim : ClaimValue} (live : Live (state.shards p).claims.log key index claim)
    (sure : (state.replicas r).unsure p ≠ some key) :
    (state.replicas r).map key = some claim := by
  have warm : (state.replicas r).warm = true := (Bool.and_eq_true _ _ ▸ isWarm).1
  have ready : (state.replicas r).status p = .ready :=
    (followed.sound.guarded r).orderly.ready warm p (List.contains_iff_mem.mp owns)
  have home := followed.sound.filed.log p index _ key live.1 rfl
  rw [← view_cache home]
  exact (followed.known.ready ready writer key sure).live index claim live

/-- A claim that was withdrawn, a record that cannot be read, and the claim of an order. -/
def oldClaims : ClaimTopic oneShard where
  log p :=
    if p = 0 then [⟨.claim "order-1" ⟨"orders", 0, 1⟩, false⟩, ⟨.tombstone "order-1", false⟩,
      ⟨.other, false⟩, ⟨.claim "order-7" ⟨"orders", 0, 7⟩, false⟩]
    else []
  filed p index entry key found _ := by
    by_cases here : p = 0
    · exact here.symm
    · simp [here] at found

/-- The replica takes the partition over, reads its four records and becomes warm. -/
def replayFour (r : Nat) : List Action :=
  [.assign r [0], .prepare r true, .measure r, .install r, .purge r, .fetch r 0, .fetch r 0,
    .fetch r 0, .fetch r 0, .deliver r, .process r, .process r, .process r, .process r, .settle r,
    .deliver r, .settle r]

/-- Another replica opens the producer while the first one is ready; then the first one gives the
partition up. -/
def overtaken : List Action :=
  replayFour 0 ++ [.assign 1 [0], .prepare 1 true, .revoke 0 [0], .purge 0, .release 0]

/-- The commit has landed, but its caller has not got the answer. -/
def unansweredCommit : List Action :=
  warmUp 0 ++ (produceCall 0 0 "orders" 7).dropLast

end KrabkaGateway.Dedup
