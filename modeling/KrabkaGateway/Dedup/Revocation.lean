import KrabkaGateway.Dedup.Horizon

/-!
# Revocation

What the claim map of a replica has of a partition that the consumer gave up. The callback
takes the keys out first and waits for the slots afterwards, so a call that holds the slot
of the partition can still confirm its commit in between, and its key stays in the map. No
other key gets in, for as long as the partition is not assigned again.
-/

namespace KrabkaGateway.Dedup

open Lib Lib.ClaimLog Lib.FencedLog

def LoopPhase.revoking : LoopPhase → Bool
  | .purging _ _ | .releasing _ => true
  | _ => false

/-- The keys are taken out and slots are waited for. -/
def LoopPhase.purged : LoopPhase → Bool
  | .releasing _ => true
  | _ => false

def lateCommit (setup : Setup) (r p : Nat) (state : State) : Action → Bool
  | .committed actor call =>
    match (state.replicas actor).calls call with
    | .running _ key _ =>
      actor = r && (state.replicas r).phase.purged && setup.partitionOf key = p
    | _ => false
  | _ => false

def Action.assigns (r p : Nat) : Action → Bool
  | .assign actor partitions => actor = r && partitions.contains p
  | _ => false

variable {setup : Setup} {state after : State} {action : Action} {r p : Nat}

/-! ## What a call leaves alone -/

structure CallFrame (setup : Setup) (call : Nat) (key : String) (replica next : Replica) :
    Prop where
  owned : next.owned = replica.owned
  assigned : next.assigned = replica.assigned
  phase : next.phase = replica.phase
  calls : ∀ other, other ≠ call → next.calls other = replica.calls other
  lock : ∀ q, q ≠ setup.partitionOf key → next.lock q = replica.lock q
  map : ∀ other, other ≠ key → next.map other = replica.map other

variable {call : Nat} {key : String}

theorem CallFrame.fail (replica : Replica) (record : GatewayRecord) (error : GatewayError)
    (restart : Bool) :
    CallFrame setup call key replica
      (replica.fail call (setup.partitionOf key) record error restart) := by
  cases restart <;>
    exact ⟨rfl, rfl, rfl, fun _ => set_ne _ _, fun _ => set_ne _ _, fun _ _ => rfl⟩

variable {record : GatewayRecord} {stage : Stage}

theorem CallFrame.of_callEvent
    (event : CallEvent setup state r call record key stage action after) :
    CallFrame setup call key (state.replicas r) (after.replicas r) := by
  cases event with
  | openFailed | beginFailed | abortConfirmed | abortFailed =>
    exact replicas_setReplica _ _ _ ▸ .fail _ _ _ _
  | acquire | refuse | hit | cancel =>
    exact replicas_setReplica _ _ _ ▸
      ⟨rfl, rfl, rfl, fun _ => set_ne _ _, fun _ => set_ne _ _, fun _ _ => rfl⟩
  | committed sent landed =>
    exact replicas_setReplica _ _ _ ▸
      ⟨rfl, rfl, rfl, fun _ => set_ne _ _, fun _ => set_ne _ _, fun _ => set_ne _ _⟩
  | _ =>
    exact replicas_setReplica _ _ _ ▸
      ⟨rfl, rfl, rfl, fun _ => set_ne _ _, fun _ _ => rfl, fun _ _ => rfl⟩

theorem map_of_callEvent (event : CallEvent setup state r call record key stage action after) :
    (after.replicas r).map = (state.replicas r).map ∨
      action = .committed r call ∧ (after.replicas r).map key ≠ none := by
  cases event with
  | committed sent landed =>
    refine Or.inr ⟨rfl, ?_⟩
    rw [replicas_setReplica]
    exact fun absent => Option.some_ne_none _ ((set_self _ _ _).symm.trans absent)
  | openFailed empty => exact Or.inl (replicas_setReplica _ _ _ ▸ rfl)
  | beginFailed filled told =>
    refine Or.inl ?_
    rw [replicas_setReplica, Replica.fail]
    split <;> rfl
  | _ => exact Or.inl (replicas_setReplica _ _ _ ▸ rfl)

/-! ## A partition that was given up -/

structure Vacated (setup : Setup) (p : Nat) (replica : Replica) : Prop where
  empty : ∀ key, setup.partitionOf key = p → replica.map key = none
  unowned : p ∉ replica.owned
  unassigned : p ∉ replica.assigned
  outside : ∀ call record key stage, replica.lock p = some call →
    replica.calls call = .running record key stage → stage = .recheckOwner

namespace Vacated

variable {replica next : Replica}

variable {call : Nat}

theorem frame (vacated : Vacated setup p replica) (free : replica.lock p ≠ some call)
    (map : ∀ key, setup.partitionOf key = p → next.map key = replica.map key)
    (owned : next.owned = replica.owned) (assigned : next.assigned = replica.assigned)
    (lock : next.lock p = replica.lock p)
    (calls : ∀ other, other ≠ call → next.calls other = replica.calls other) :
    Vacated setup p next where
  empty key here := (map key here).trans (vacated.empty key here)
  unowned := owned ▸ vacated.unowned
  unassigned := assigned ▸ vacated.unassigned
  outside other record key stage held running := by
    rw [lock] at held
    have different : other ≠ call := fun same => free (same ▸ held)
    exact vacated.outside other record key stage held (calls other different ▸ running)

theorem of_callEvent (guarded : Guarded setup (state.replicas r))
    (vacated : Vacated setup p (state.replicas r)) (here : At setup state r call record key stage)
    (event : CallEvent setup state r call record key stage action after) :
    Vacated setup p (after.replicas r) := by
  have kept := CallFrame.of_callEvent event
  by_cases own : setup.partitionOf key = p
  · -- Under the lock of the partition a call only looks whether it is owned, and it is not.
    have early : stage.locked = true → stage = .recheckOwner := fun locked =>
      vacated.outside _ _ _ _ (own ▸ here.held locked) here.running
    have before (unlocked : stage.locked = false)
        (map : (after.replicas r).map = (state.replicas r).map)
        (lock : (after.replicas r).lock = (state.replicas r).lock) :
        Vacated setup p (after.replicas r) :=
      vacated.frame (guarded.not_held here unlocked p) (fun other _ => congrFun map other)
        kept.owned kept.assigned (congrFun lock p) kept.calls
    cases event with
    | refuseEarly first =>
      refine before ?_ (replicas_setReplica _ _ _ ▸ rfl) (replicas_setReplica _ _ _ ▸ rfl)
      rcases first with rfl | rfl <;> rfl
    | pass passes =>
      refine before ?_ (replicas_setReplica _ _ _ ▸ rfl) (replicas_setReplica _ _ _ ▸ rfl)
      cases passes <;> rfl
    | hitEarly | cancelWaiting =>
      exact before rfl (replicas_setReplica _ _ _ ▸ rfl) (replicas_setReplica _ _ _ ▸ rfl)
    | acquire free =>
      rw [replicas_setReplica]
      refine ⟨vacated.empty, vacated.unowned, vacated.unassigned, ?_⟩
      intro other record' key' stage' held running
      obtain rfl : call = other := by
        subst own
        exact Option.some.inj ((set_self _ _ _).symm.trans held)
      cases (set_self _ _ _).symm.trans running
      rfl
    | refuse late =>
      rw [replicas_setReplica]
      refine ⟨vacated.empty, vacated.unowned, vacated.unassigned, ?_⟩
      intro other record' key' stage' held running
      subst own
      cases (set_self _ _ _).symm.trans held
    | owner owns => exact absurd (own ▸ Replica.owns_iff.mp owns) vacated.unowned
    | abandon abandons => cases abandons <;> cases early rfl
    | cancel suspended locked =>
      rw [early locked] at suspended
      cases suspended
    | _ => cases early rfl
  · have free : (state.replicas r).lock p ≠ some call := fun held =>
      own (guarded.locks.partition_eq here.running held).symm
    refine vacated.frame free (fun other there => kept.map other ?_) kept.owned kept.assigned
      (kept.lock p (Ne.symm own)) kept.calls
    rintro rfl
    exact own there

theorem of_loop (vacated : Vacated setup p replica) (lock : next.lock = replica.lock)
    (calls : next.calls = replica.calls)
    (map : ∀ key, setup.partitionOf key = p → replica.map key = none → next.map key = none)
    (owned : ∀ q ∈ next.owned, q ∈ replica.owned ∨ q ∈ replica.assigned)
    (assigned : p ∉ next.assigned) : Vacated setup p next where
  empty key here := map key here (vacated.empty key here)
  unowned member := (owned p member).elim vacated.unowned vacated.unassigned
  unassigned := assigned
  outside := by
    rw [lock, calls]
    exact vacated.outside

theorem of_loopEvent (filed : Filed setup state) (vacated : Vacated setup p (state.replicas r))
    (event : LoopEvent setup state r action after) (other : action.assigns r p = false) :
    Vacated setup p (after.replicas r) := by
  cases event with rw [replicas_setReplica]
  | revoke polling handled =>
    refine vacated.of_loop rfl rfl (fun _ _ absent => absent)
      (fun q member => Or.inl (List.mem_filter.mp member).1) fun member => ?_
    exact vacated.unassigned (List.mem_filter.mp member).1
  | purge purging =>
    refine vacated.of_loop rfl rfl (fun key _ absent => ?_) (fun _ => Or.inl) vacated.unassigned
    dsimp only
    split
    · rfl
    · exact absent
  | assign polling handled =>
    rename_i partitions
    have apart : p ∉ partitions := by simpa [Action.assigns] using other
    refine vacated.of_loop rfl rfl (fun _ _ absent => absent) (fun _ => Or.inl) fun member => ?_
    rcases List.mem_append.mp member with old | new
    · exact vacated.unassigned old
    · exact apart (List.mem_filter.mp new).1
  | install installing =>
    exact vacated.of_loop rfl rfl (fun _ _ absent => absent) (fun _ => Or.inr) vacated.unassigned
  | process processing next found =>
    rename_i partition index rest entry
    refine vacated.of_loop rfl rfl (fun key here absent => ?_) (fun _ => Or.inl)
      vacated.unassigned
    dsimp only
    split
    · rename_i owns
      have foreign : entry.content.key? ≠ some key := fun own =>
        vacated.unowned (here ▸ filed.log partition index entry key found own ▸
          Replica.owns_iff.mp owns)
      rw [Content.apply_of_key?_ne foreign]
      exact absent
    · exact absent
  | quit stopping =>
    exact vacated.of_loop rfl rfl (fun _ _ absent => absent)
      (fun _ member => absurd member List.not_mem_nil) vacated.unassigned
  | clear clearing =>
    exact vacated.of_loop rfl rfl (fun _ _ _ => rfl) (fun _ => Or.inl) vacated.unassigned
  | _ =>
    exact vacated.of_loop rfl rfl (fun _ _ absent => absent) (fun _ => Or.inl) vacated.unassigned

/-- The partition stays out of the map until it is assigned again. -/
theorem step (sound : Sound setup state) (vacated : Vacated setup p (state.replicas r))
    (other : action.assigns r p = false) (taken : state.step setup action = some after) :
    Vacated setup p (after.replicas r) := by
  have guarded := sound.guarded r
  refine (event_of_step taken).at_replica vacated ?_ ?_ ?_ ?_
  · intro call next idle
    have free : (state.replicas r).lock p ≠ some call := by
      refine guarded.locks.not_held (fun record key stage running => ?_) p
      cases idle.symm.trans running
    exact vacated.frame free (fun _ _ => rfl) rfl rfl rfl fun _ => set_ne _ _
  · intro call record key stage _ here event
    exact vacated.of_callEvent guarded here event
  · exact fun event => vacated.of_loopEvent sound.filed event other
  · exact fun q => ⟨vacated.empty, vacated.unowned, vacated.unassigned, vacated.outside⟩

end Vacated

/-! ## The callback -/

/-- The partition is being given up: its keys are about to be taken out, or they are and its slot is
waited for. -/
structure Departing (setup : Setup) (p : Nat) (replica : Replica) : Prop where
  unowned : p ∉ replica.owned
  unassigned : p ∉ replica.assigned
  stage : (∃ gone revoked, replica.phase = .purging gone revoked ∧ p ∈ gone ∧ p ∈ revoked) ∨
    ∃ revoked, replica.phase = .releasing revoked ∧ p ∈ revoked ∧
      ∀ key, setup.partitionOf key = p → replica.map key = none

namespace Departing

variable {replica next : Replica}

theorem frame (departing : Departing setup p replica) (owned : next.owned = replica.owned)
    (assigned : next.assigned = replica.assigned) (phase : next.phase = replica.phase)
    (map : replica.phase.purged = true →
      ∀ key, setup.partitionOf key = p → next.map key = replica.map key) :
    Departing setup p next where
  unowned := owned ▸ departing.unowned
  unassigned := assigned ▸ departing.unassigned
  stage := by
    rw [phase]
    refine departing.stage.imp_right ?_
    rintro ⟨revoked, releasing, waits, empty⟩
    refine ⟨revoked, releasing, waits, fun key here => ?_⟩
    exact (map (by rw [releasing]; rfl) key here).trans (empty key here)

theorem of_loopEvent (departing : Departing setup p (state.replicas r))
    (event : LoopEvent setup state r action after) :
    Departing setup p (after.replicas r) ∨ Vacated setup p (after.replicas r) := by
  rcases departing.stage with ⟨gone, revoked, purging, goes, waits⟩ |
      ⟨revoked, releasing, waits, empty⟩
  · cases event with
    | purge phase =>
      cases phase.symm.trans purging
      rw [replicas_setReplica]
      refine Or.inl ⟨departing.unowned, departing.unassigned, Or.inr ⟨revoked, ?_, waits, ?_⟩⟩
      · exact if_neg (by simpa using List.ne_nil_of_mem waits)
      · rintro key rfl
        exact if_pos (List.contains_iff_mem.mpr goes)
    | _ => simp_all
  · cases event with
    | release phase free =>
      rename_i partition rest
      cases phase.symm.trans releasing
      rw [replicas_setReplica]
      rcases List.mem_cons.mp waits with rfl | later
      · refine Or.inr ⟨empty, departing.unowned, departing.unassigned, ?_⟩
        rintro call record key stage held
        cases free.symm.trans held
      · refine Or.inl ⟨departing.unowned, departing.unassigned, Or.inr ⟨rest, ?_, later, empty⟩⟩
        exact if_neg (by simpa using List.ne_nil_of_mem later)
    | _ => simp_all

/-- Where no commit comes late, the callback goes on to give the partition up, or has done so. -/
theorem step (departing : Departing setup p (state.replicas r))
    (early : lateCommit setup r p state action = false)
    (taken : state.step setup action = some after) :
    Departing setup p (after.replicas r) ∨ Vacated setup p (after.replicas r) := by
  refine (event_of_step taken).at_replica
    (motive := fun next => Departing setup p next ∨ Vacated setup p next)
    (Or.inl departing) ?_ ?_ ?_ ?_
  · exact fun call next _ => Or.inl (departing.frame rfl rfl rfl fun _ _ _ => rfl)
  · intro call record key stage _ here event
    have kept := CallFrame.of_callEvent event
    refine Or.inl (departing.frame kept.owned kept.assigned kept.phase fun purged other there => ?_)
    rcases map_of_callEvent event with same | ⟨rfl, _⟩
    · rw [same]
    · refine kept.map other ?_
      rintro rfl
      simp [lateCommit, here.running, purged, there] at early
  · exact fun event => departing.of_loopEvent event
  · exact fun q => Or.inl (departing.frame rfl rfl rfl fun _ _ _ => rfl)

end Departing

theorem departing_of_revoke (sound : Sound setup state) {partitions : List Nat}
    (asked : p ∈ partitions) (mine : p ∈ (state.replicas r).assigned)
    (taken : state.step setup (.revoke r partitions) = some after) :
    Departing setup p (after.replicas r) := by
  cases event_of_step taken with
  | loop event =>
    cases event with
    | revoke polling handled =>
      have facts := (sound.guarded r).orderly.phase
      rw [polling] at facts
      have owned := (facts.assigned p).mp mine
      rw [replicas_setReplica]
      refine ⟨?_, ?_, Or.inl ⟨_, partitions, rfl, ?_, asked⟩⟩
      all_goals simp [asked, owned]
  | call target here event => cases target
  | broker event => cases event

/-- A late commit stays in the map to the end of the callback. -/
def Kept (key : String) (replica : Replica) : Prop :=
  replica.map key ≠ none ∧ ∀ gone revoked, replica.phase ≠ .purging gone revoked

theorem Kept.step (kept : Kept key (state.replicas r))
    (inside : (state.replicas r).phase.revoking = true)
    (taken : state.step setup action = some after) : Kept key (after.replicas r) := by
  refine (event_of_step taken).at_replica kept (fun _ _ _ => kept) ?_ ?_ fun _ => kept
  · intro call record own stage _ here event
    have frame := CallFrame.of_callEvent event
    refine ⟨?_, frame.phase ▸ kept.2⟩
    rcases map_of_callEvent event with same | ⟨_, found⟩
    · exact same ▸ kept.1
    · by_cases mine : key = own
      · exact mine ▸ found
      · exact frame.map key mine ▸ kept.1
  · intro event
    cases event with
    | purge phase => exact absurd phase (kept.2 _ _)
    | release phase free =>
      rw [replicas_setReplica]
      refine ⟨kept.1, fun gone revoked => ?_⟩
      dsimp only
      split <;> nofun
    | _ => simp_all [LoopPhase.revoking]

theorem kept_of_lateCommit (late : lateCommit setup r p state action = true)
    (taken : state.step setup action = some after) :
    ∃ key, setup.partitionOf key = p ∧ Kept key (after.replicas r) := by
  cases action with
  | committed actor call =>
    simp only [lateCommit] at late
    split at late
    · rename_i record key stage running
      simp only [Bool.and_eq_true, decide_eq_true_eq] at late
      obtain ⟨⟨rfl, purged⟩, here⟩ := late
      refine ⟨key, here, ?_⟩
      simp only [State.step, State.atCall, running, Option.ite_none_left_eq_some] at taken
      obtain ⟨_, taken⟩ := taken
      simp only [State.callStep] at taken
      split at taken
      all_goals try contradiction
      rw [Option.ite_none_right_eq_some, Option.some.injEq] at taken
      obtain ⟨_, rfl⟩ := taken
      rw [replicas_setReplica]
      refine ⟨fun absent => Option.some_ne_none _ ((set_self _ _ _).symm.trans absent), ?_⟩
      intro gone revoked purging
      cases (show (state.replicas actor).phase = _ from purging) ▸ purged
    · cases late
  | _ => cases late

variable {actions : List Action} {final : State}

/-- If the map has no key of the partition after the callback, no commit came late. -/
theorem early_of_empty (inside : Run.Along (State.step setup)
      (fun state _ => (state.replicas r).phase.revoking = true) state actions)
    (run : Run.exec (State.step setup) state actions = some final)
    (empty : ∀ key, setup.partitionOf key = p → (final.replicas r).map key = none) :
    Run.Along (State.step setup) (fun state action => lateCommit setup r p state action = false)
      state actions := by
  induction actions generalizing state with
  | nil => trivial
  | cons action rest ih =>
    obtain ⟨next, taken, remaining⟩ := Run.exec_cons_eq_some.mp run
    have later := inside.2 next taken
    refine ⟨?_, fun next' taken' => ?_⟩
    · by_contra late
      obtain ⟨key, here, kept⟩ := kept_of_lateCommit (Bool.of_not_eq_false late) taken
      have stays := Run.exec_preserves (fun state => Kept key (state.replicas r))
        (fun _ _ _ kept inside taken => kept.step inside taken) kept later remaining
      exact stays.1 (empty key here)
    · cases taken.symm.trans taken'
      exact ih later remaining

theorem unassigned_of_revoking (inside : (state.replicas r).phase.revoking = true)
    (taken : state.step setup action = some after) : action.assigns r p = false := by
  by_contra assigns
  cases action with
  | assign actor partitions =>
    simp only [Action.assigns, Bool.not_eq_false, Bool.and_eq_true, decide_eq_true_eq] at assigns
    obtain ⟨rfl, _⟩ := assigns
    cases event_of_step taken with
    | loop event =>
      cases event with
      | assign polling handled =>
        rw [polling] at inside
        cases inside
    | call target here event => cases target
    | broker event => cases event
  | _ => exact assigns rfl

theorem vacated_of_early (sound : Sound setup state)
    (departing : Departing setup p (state.replicas r)) (inside : Run.Along (State.step setup)
      (fun state _ => (state.replicas r).phase.revoking = true) state actions)
    (early : Run.Along (State.step setup)
      (fun state action => lateCommit setup r p state action = false) state actions)
    (run : Run.exec (State.step setup) state actions = some final)
    (returned : (final.replicas r).phase = .polling) :
    Sound setup final ∧ Vacated setup p (final.replicas r) := by
  have reached := Run.exec_preserves
    (fun state => Sound setup state ∧
      (Departing setup p (state.replicas r) ∨ Vacated setup p (state.replicas r)))
    (fun state action next ⟨sound, gives⟩ ⟨inside, early⟩ taken =>
      ⟨sound.step taken, gives.elim (fun departing => departing.step early taken)
        fun vacated => Or.inr (vacated.step sound (unassigned_of_revoking inside taken) taken)⟩)
    ⟨sound, Or.inl departing⟩ (Run.along_and inside early) run
  refine ⟨reached.1, reached.2.resolve_left fun still => ?_⟩
  rcases still.stage with ⟨_, _, purging, _⟩ | ⟨_, releasing, _⟩
  · cases returned.symm.trans purging
  · cases returned.symm.trans releasing

/-- After a revocation, until it is assigned again, the claim map has no key of a partition of the
replica that was revoked, exactly if no call of the partition confirmed its commit between the
purge of the map and the release of the slots. -/
theorem revoked_claims_gone_iff (setup : Setup) (r p : Nat) (partitions : List Nat)
    (before during : List Action) {owner revoked returned : State}
    (reached : Run.exec (State.step setup) State.initial before = some owner)
    (mine : p ∈ (owner.replicas r).assigned) (asked : p ∈ partitions)
    (called : owner.step setup (.revoke r partitions) = some revoked)
    (inside : Run.Along (State.step setup)
      (fun state _ => (state.replicas r).phase.revoking = true) revoked during)
    (run : Run.exec (State.step setup) revoked during = some returned)
    (returns : (returned.replicas r).phase = .polling) :
    (∀ more later, (∀ action ∈ more, action.assigns r p = false) →
      Run.exec (State.step setup) returned more = some later →
      ∀ key, setup.partitionOf key = p → (later.replicas r).map key = none) ↔
    Run.Along (State.step setup) (fun state action => lateCommit setup r p state action = false)
      revoked during := by
  have sound := sound_of_run reached
  constructor
  · intro gone
    exact early_of_empty inside run (gone [] returned (by simp) rfl)
  · intro early more later unassigned afterwards
    obtain ⟨sound, vacated⟩ := vacated_of_early (sound.step called)
      (departing_of_revoke sound asked mine called) inside early run returns
    have stays := Run.exec_preserves
      (fun state => Sound setup state ∧ Vacated setup p (state.replicas r))
      (fun _ _ _ ⟨sound, vacated⟩ other taken => ⟨sound.step taken, vacated.step sound other taken⟩)
      ⟨sound, vacated⟩ (Run.along_of_forall_mem unassigned returned) afterwards
    exact stays.2.empty

theorem finished_call_leaves_no_claim :
    ∃ owner revoked returned,
      Run.exec (State.step oneShard) State.initial (warmUp 0 ++ produceCall 0 0 "orders" 7) =
        some owner ∧
      (owner.replicas 0).map "order-7" = some ⟨"orders", 0, 7⟩ ∧
      owner.step oneShard (.revoke 0 [0]) = some revoked ∧
      Run.exec (State.step oneShard) revoked [.purge 0, .release 0] = some returned ∧
      ∀ more later, (∀ action ∈ more, action.assigns 0 0 = false) →
        Run.exec (State.step oneShard) returned more = some later →
        ∀ key, oneShard.partitionOf key = 0 → (later.replicas 0).map key = none :=
  ⟨_, _, _, rfl, rfl, rfl, rfl,
    (revoked_claims_gone_iff oneShard 0 0 [0] (warmUp 0 ++ produceCall 0 0 "orders" 7)
      [.purge 0, .release 0] rfl (by decide) (by decide) rfl (by decide) rfl rfl).mpr (by decide)⟩

/-- The commit is sent before the revocation and confirmed between its two halves. -/
theorem late_commit_stays_in_map :
    ∃ owner revoked returned,
      Run.exec (State.step oneShard) State.initial
        (warmUp 0 ++ (produceCall 0 0 "orders" 7).dropLast) = some owner ∧
      owner.step oneShard (.revoke 0 [0]) = some revoked ∧
      Run.exec (State.step oneShard) revoked [.purge 0, .committed 0 0, .release 0] =
        some returned ∧
      (returned.replicas 0).phase = .polling ∧ (returned.replicas 0).assigned = [] ∧
      (returned.replicas 0).map "order-7" = some ⟨"orders", 0, 7⟩ :=
  ⟨_, _, _, rfl, rfl, rfl, rfl, rfl, rfl⟩

end KrabkaGateway.Dedup
