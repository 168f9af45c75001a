import KrabkaGateway.Dedup.Gate
import KrabkaGateway.Lib.FencedStep

/-!
# A replica's view of one partition

What a replica has of one partition of the claim topic is a node of the fenced claim
log: its producer, its reading of the log, the claims of that partition and the call
that holds the lock. Every step of the system is, at each partition, at most one move
of the replica that takes it.
-/

namespace KrabkaGateway.Dedup

open Lib Lib.ClaimLog Lib.FencedLog

/-- The write that a call under the lock has under way. Before it looks the key up again it has
none. -/
def Stage.job? (key : String) : Stage → Option (Job String ClaimValue)
  | .recheck => some ⟨key, .lookup⟩
  | .opening | .beginning => some ⟨key, .preparing⟩
  | .sendingData | .sendingClaim _ | .ending _ => some ⟨key, .writing⟩
  | .committing claim => some ⟨key, .committing claim⟩
  | .aborting _ => some ⟨key, .aborting⟩
  | _ => none

def Call.job? : Call → Option (Job String ClaimValue)
  | .running _ key stage => stage.job? key
  | _ => none

def Replica.job (replica : Replica) (p : Nat) : Option (Job String ClaimValue) :=
  (replica.lock p).bind fun call => (replica.calls call).job?

/-- The fetched records of one partition. -/
def pendingOf (batch : List (Nat × Nat)) (p : Nat) : List Nat :=
  (batch.filter fun fetched => fetched.1 = p).map Prod.snd

variable (setup : Setup)

def Replica.view (replica : Replica) (p : Nat) : Local String ClaimValue where
  handle := replica.slot p
  status := replica.status p
  position := replica.position p
  pending := pendingOf replica.batch p
  target := replica.targets.lookup p
  cache := fun key => if setup.partitionOf key = p then replica.map key else none
  unsure := replica.unsure p
  landed := replica.landed p
  restart := replica.restartRequired
  job := replica.job p

variable {setup} {replica next : Replica} {call : Nat} {record : GatewayRecord} {key : String}
  {stage : Stage} {p : Nat}

theorem view_cache (here : setup.partitionOf key = p) :
    (replica.view setup p).cache key = replica.map key :=
  if_pos here

/-! ## The job -/

theorem job_held (held : replica.lock p = some call)
    (running : replica.calls call = .running record key stage) :
    replica.job p = stage.job? key := by
  rw [Replica.job, held, Option.bind_some, running, Call.job?]

theorem job_free (free : replica.lock p = none) : replica.job p = none := by
  rw [Replica.job, free, Option.bind_none]

theorem job_congr (lock : next.lock p = replica.lock p)
    (calls : ∀ call, replica.lock p = some call → next.calls call = replica.calls call) :
    next.job p = replica.job p := by
  rw [Replica.job, Replica.job, lock]
  cases held : replica.lock p with
  | none => rfl
  | some call => simp only [Option.bind_some, calls call held]

theorem view_congr (slot : next.slot p = replica.slot p) (status : next.status p = replica.status p)
    (position : next.position p = replica.position p)
    (batch : pendingOf next.batch p = pendingOf replica.batch p)
    (targets : next.targets.lookup p = replica.targets.lookup p)
    (map : ∀ key, setup.partitionOf key = p → next.map key = replica.map key)
    (unsure : next.unsure p = replica.unsure p) (landed : next.landed p = replica.landed p)
    (restart : next.restartRequired = replica.restartRequired)
    (job : next.job p = replica.job p) : next.view setup p = replica.view setup p := by
  have cache : (next.view setup p).cache = (replica.view setup p).cache := by
    funext key
    by_cases here : setup.partitionOf key = p
    · rw [view_cache here, view_cache here, map key here]
    · simp only [Replica.view, if_neg here]
  rw [Replica.view, Replica.view, Local.mk.injEq]
  exact ⟨slot, status, position, batch, targets, cache, unsure, landed, restart, job⟩

/-! ## Calls -/

variable {allowed : Kind → Shared Nat String ClaimValue → Local String ClaimValue → Prop}
  {state : State} {r : Nat} {action : Action} {σ : Shared Nat String ClaimValue}

/-- The moves that the caller answers for. -/
structure Fair (allowed : Kind → Shared Nat String ClaimValue → Local String ClaimValue → Prop)
    (setup : Setup) (state : State) (action : Action) (r p : Nat) : Prop where
  plain : ∀ kind σ l, kind ≠ .reopen → kind ≠ .miss → allowed kind σ l
  reopen : ∀ call record key stage, action = .opened r call none →
    At setup state r call record key stage → setup.partitionOf key = p →
      allowed .reopen (state.shards p).claims ((state.replicas r).view setup p)
  miss : ∀ call record key, action = .check r call →
    At setup state r call record key .recheck → setup.partitionOf key = p →
      allowed .miss (state.shards p).claims ((state.replicas r).view setup p)

theorem Fair.other (fair : Fair allowed setup state action r p) (σ : Shared Nat String ClaimValue)
    (l : Local String ClaimValue) : allowed .other σ l :=
  fair.plain _ _ _ (by rintro ⟨⟩) (by rintro ⟨⟩)

theorem view_advance (held : replica.lock p = some call) (record : GatewayRecord) (key : String)
    (stage : Stage) :
    (replica.advance call record key stage).view setup p =
      { replica.view setup p with job := stage.job? key } := by
  have job : (replica.advance call record key stage).job p = stage.job? key :=
    job_held held (set_self _ _ _)
  simp only [Replica.view, Local.mk.injEq]
  exact ⟨rfl, rfl, rfl, rfl, rfl, rfl, rfl, rfl, rfl, job⟩

theorem view_finish (call : Nat) (record : GatewayRecord)
    (result : Except GatewayError RecordOutcome) :
    (replica.finish call p record result).view setup p =
      { replica.view setup p with job := none } := by
  have job : (replica.finish call p record result).job p = none := job_free (set_self _ _ _)
  simp only [Replica.view, Local.mk.injEq]
  exact ⟨rfl, rfl, rfl, rfl, rfl, rfl, rfl, rfl, rfl, job⟩

theorem view_fail (call : Nat) (record : GatewayRecord) (error : GatewayError) (restart : Bool) :
    (replica.fail call p record error restart).view setup p =
      { replica.view setup p with
        handle := none
        restart := replica.restartRequired || restart
        job := none } := by
  have job : (replica.fail call p record error restart).job p = none := by
    cases restart with
    | false | true => exact job_free (set_self _ _ _)
  have slot : (replica.fail call p record error restart).slot p = none := set_self _ _ _
  cases restart with
  | false =>
    simp only [Replica.view, Local.mk.injEq, Bool.or_false]
    exact ⟨slot, rfl, rfl, rfl, rfl, rfl, rfl, rfl, rfl, job⟩
  | true =>
    simp only [Replica.view, Local.mk.injEq, Bool.or_true]
    exact ⟨slot, rfl, rfl, rfl, rfl, rfl, rfl, rfl, rfl, job⟩

theorem step_fail_elsewhere (locks : Locks setup replica)
    (running : replica.calls call = .running record key stage)
    (elsewhere : p ≠ setup.partitionOf key) (error : GatewayError) (restart : Bool)
    (plain : ∀ σ l, allowed .other σ l) :
    Step allowed r σ (replica.view setup p) σ
      ((replica.fail call (setup.partitionOf key) record error restart).view setup p) := by
  have job : (replica.fail call (setup.partitionOf key) record error restart).job p =
      replica.job p := by
    have others : ∀ other, replica.lock p = some other →
        set replica.calls call (.done record (.error error)) other = replica.calls other := by
      intro other held
      exact set_ne _ _ fun same => elsewhere (locks.partition_eq running (same ▸ held))
    cases restart with
    | false | true => exact job_congr (set_ne _ _ elsewhere) others
  have slot : (replica.fail call (setup.partitionOf key) record error restart).slot p =
      replica.slot p := set_ne _ _ elsewhere
  cases restart with
  | false =>
    exact .of_eq rfl (view_congr slot rfl rfl rfl rfl (fun _ _ => rfl) rfl rfl rfl job)
  | true =>
    refine .of_move .restart (plain _ _) rfl ?_
    simp only [Replica.view, Local.mk.injEq]
    exact ⟨slot, rfl, rfl, rfl, rfl, rfl, rfl, rfl, rfl, job⟩

theorem view_outside (free : replica.lock p ≠ some call) (after : Call) :
    ({ replica with calls := set replica.calls call after } : Replica).view setup p =
      replica.view setup p := by
  refine view_congr rfl rfl rfl rfl rfl (fun _ _ => rfl) rfl rfl rfl (job_congr rfl ?_)
  exact fun other held => set_ne _ _ fun same => free (same ▸ held)

theorem view_elsewhere (locks : Locks setup replica)
    (running : replica.calls call = .running record key stage)
    (elsewhere : p ≠ setup.partitionOf key) (after : Call) {lock : Nat → Option Nat}
    {slot : Nat → Option Handle} {map : String → Option ClaimValue} {unsure : Nat → Option String}
    {landed : Nat → Bool} (sameLock : lock p = replica.lock p) (sameSlot : slot p = replica.slot p)
    (sameMap : ∀ other, other ≠ key → map other = replica.map other)
    (sameUnsure : unsure p = replica.unsure p) (sameLanded : landed p = replica.landed p) :
    ({ replica with
      calls := set replica.calls call after
      lock := lock
      slot := slot
      map := map
      unsure := unsure
      landed := landed } : Replica).view setup p = replica.view setup p := by
  refine view_congr sameSlot rfl rfl rfl rfl ?_ sameUnsure sameLanded rfl (job_congr sameLock ?_)
  · exact fun other here => sameMap other fun same => elsewhere (same ▸ here).symm
  · intro other held
    exact set_ne _ _ fun same => elsewhere (locks.partition_eq running (same ▸ held))

@[simp] theorem shards_setReplica (state : State) (r : Nat) (replica : Replica) :
    (state.setReplica r replica).shards = state.shards := rfl

@[simp] theorem shards_setShard (state : State) (p : Nat) (shard : Shard) :
    (state.setShard p shard).shards = set state.shards p shard := rfl

@[simp] theorem shards_fence (state : State) (p : Nat) (writer : Option Nat) :
    (state.fence p writer).shards =
      set state.shards p
        { claims := (state.shards p).claims.fence writer, draft := none } := rfl

variable {after : State}

theorem step_elsewhere (guarded : Guarded setup (state.replicas r))
    (here : At setup state r call record key stage) (locked : stage.locked = true)
    (event : CallEvent setup state r call record key stage action after)
    (elsewhere : p ≠ setup.partitionOf key) (fair : Fair allowed setup state action r p) :
    Step allowed r (state.shards p).claims ((state.replicas r).view setup p)
      (after.shards p).claims ((after.replicas r).view setup p) := by
  have locks := guarded.locks
  have running := here.running
  have keeps : ∀ {table : Nat → Shard} {shard : Shard},
      (set table (setup.partitionOf key) shard p).claims = (table p).claims := by
    intro table shard
    rw [set_ne _ _ elsewhere]
  have other : ∀ {α : Type} (table : Nat → α) (value : α),
      set table (setup.partitionOf key) value p = table p := fun _ _ => set_ne _ _ elsewhere
  cases event with
  | refuseEarly early => obtain rfl | rfl := early <;> contradiction
  | pass passes => cases passes <;> contradiction
  | hitEarly | acquire | cancelWaiting => contradiction
  | openFailed | beginFailed | abortFailed =>
    rw [replicas_setReplica]
    exact step_fail_elsewhere locks running elsewhere _ _ fair.other
  | abortConfirmed busy =>
    rw [replicas_setReplica, shards_setReplica, shards_setShard, keeps]
    exact step_fail_elsewhere locks running elsewhere _ _ fair.other
  | opened empty =>
    rw [replicas_setReplica, shards_setReplica, shards_fence, keeps]
    exact .of_eq rfl (view_elsewhere locks running elsewhere _ rfl (other _ _) (fun _ _ => rfl)
      rfl rfl)
  | began clean =>
    rw [replicas_setReplica]
    exact .of_eq rfl (view_elsewhere locks running elsewhere _ rfl (other _ _) (fun _ _ => rfl)
      rfl rfl)
  | sentData busy current =>
    rw [replicas_setReplica, shards_setReplica, shards_setShard, keeps]
    exact .of_eq rfl (view_elsewhere locks running elsewhere _ rfl rfl (fun _ _ => rfl) rfl rfl)
  | endTxn busy =>
    rw [replicas_setReplica, shards_setReplica, shards_setShard, keeps]
    exact .of_eq rfl (view_elsewhere locks running elsewhere _ rfl (other _ _) (fun _ _ => rfl)
      (other _ _) (other _ _))
  | committed sent landed =>
    rw [replicas_setReplica]
    exact .of_eq rfl (view_elsewhere locks running elsewhere _ (other _ _) (other _ _)
      (fun _ different => set_ne _ _ different) (other _ _) rfl)
  | commitRefused sent lost =>
    rw [replicas_setReplica, shards_setReplica, shards_setShard, keeps]
    exact .of_eq rfl (view_elsewhere locks running elsewhere _ rfl (other _ _) (fun _ _ => rfl)
      (other _ _) rfl)
  | refuse | hit | cancel =>
    rw [replicas_setReplica]
    exact .of_eq rfl (view_elsewhere locks running elsewhere _ (other _ _) rfl (fun _ _ => rfl)
      rfl rfl)
  | owner | warm | miss | reuse | sentClaim | abandon =>
    rw [replicas_setReplica]
    exact .of_eq rfl (view_elsewhere locks running elsewhere _ rfl rfl (fun _ _ => rfl) rfl rfl)

theorem step_same_job {σ' : Shared Nat String ClaimValue} (held : replica.lock p = some call)
    (running : replica.calls call = .running record key stage) {next : Stage}
    (same : next.job? key = stage.job? key) (shared : σ' = σ) :
    Step allowed r σ (replica.view setup p) σ'
      ((replica.advance call record key next).view setup p) := by
  refine .of_eq shared ((view_advance held _ _ _).trans ?_)
  rw [same, ← job_held held running]
  rfl

theorem step_here (guarded : Guarded setup (state.replicas r))
    (here : At setup state r call record key stage) (locked : stage.locked = true)
    (event : CallEvent setup state r call record key stage action after)
    (fair : Fair allowed setup state action r (setup.partitionOf key)) :
    Step allowed r (state.shards (setup.partitionOf key)).claims
      ((state.replicas r).view setup (setup.partitionOf key))
      (after.shards (setup.partitionOf key)).claims
      ((after.replicas r).view setup (setup.partitionOf key)) := by
  have running := here.running
  have held := here.held locked
  have job := job_held held running
  cases event with
  | refuseEarly early => obtain rfl | rfl := early <;> contradiction
  | pass passes => cases passes <;> contradiction
  | hitEarly | acquire | cancelWaiting => contradiction
  | refuse | hit =>
    rw [replicas_setReplica, view_finish]
    exact .of_move .drop (fair.other _ _) rfl rfl
  | owner | reuse | sentClaim =>
    rw [replicas_setReplica]
    exact step_same_job held running rfl rfl
  | warm isWarm =>
    rw [replicas_setReplica, view_advance held]
    have ready := guarded.ready_of_warm here isWarm
    refine .of_move (.enter job ready ?_) (fair.other _ _) rfl rfl
    simp only [Replica.isWarm, Bool.and_eq_true, Bool.not_eq_true'] at isWarm
    exact isWarm.2
  | miss absent =>
    rw [replicas_setReplica, view_advance held]
    refine .of_move (.miss job ?_) (fair.miss _ _ _ rfl here rfl) rfl rfl
    rw [view_cache rfl, absent]
  | opened empty =>
    rw [replicas_setReplica, shards_setReplica, shards_fence, set_self, view_advance]
    · refine .of_move (.reopen job empty) (fair.reopen _ _ _ _ rfl here rfl) rfl ?_
      simp only [Replica.view, set_self, job, Stage.job?]
      rfl
    · exact held
  | openFailed empty =>
    rw [replicas_setReplica, view_fail]
    refine .of_move (.fail false job ?_) (fair.other _ _) rfl rfl
    intro handle filled
    cases empty.symm.trans filled
  | began clean =>
    rw [replicas_setReplica, view_advance]
    · refine .of_move (.begin job clean) (fair.other _ _) rfl ?_
      simp only [Replica.view, set_self, Stage.job?]
    · exact held
  | beginFailed filled told =>
    rename_i handle error
    rw [replicas_setReplica, view_fail]
    refine .of_move (.fail (error = .recoveryRequired) job ?_) (fair.other _ _) rfl rfl
    intro found same unresolved
    obtain rfl : handle = found := Option.some.inj (filled.symm.trans same)
    obtain clean | recovery := told
    · cases clean.symm.trans unresolved
    · simp [recovery]
  | sentData busy current =>
    rw [replicas_setReplica, shards_setReplica, shards_setShard, set_self]
    exact step_same_job held running rfl rfl
  | abandon abandons =>
    rw [replicas_setReplica, view_advance held]
    cases abandons <;> exact .of_move (.abandon job) (fair.other _ _) rfl rfl
  | endTxn busy =>
    rename_i epoch claim
    rw [replicas_setReplica, shards_setReplica, shards_setShard, set_self, view_advance]
    · refine .of_move (.send claim job busy) (fair.other _ _) rfl ?_
      simp only [Replica.view, set_self, Stage.job?]
    · exact held
  | committed sent landed =>
    rename_i epoch claim
    rw [replicas_setReplica, view_finish]
    refine .of_move (.confirm job landed sent) (fair.other _ _) rfl ?_
    simp only [Replica.view, set_self, Local.mk.injEq, true_and, and_true]
    funext other
    by_cases same : other = key
    · subst same
      rw [if_pos rfl, set_self, set_self]
    · rw [set_ne _ _ same, set_ne _ _ same]
  | commitRefused sent lost =>
    rw [replicas_setReplica, shards_setReplica, shards_setShard, set_self, view_advance]
    · refine .of_move (.refuse job lost sent) (fair.other _ _) rfl ?_
      simp only [Replica.view, set_self, Stage.job?]
    · exact held
  | abortConfirmed busy =>
    rw [replicas_setReplica, shards_setReplica, shards_setShard, set_self, view_fail]
    refine .of_move (.fail false job ?_) (fair.other _ _) rfl rfl
    intro handle filled unresolved
    cases busy.symm.trans filled
    cases unresolved
  | abortFailed =>
    rw [replicas_setReplica, view_fail]
    exact .of_move (.fail true job fun _ _ _ => Bool.or_true _) (fair.other _ _) rfl rfl
  | cancel suspended locked =>
    rw [replicas_setReplica]
    refine .of_move .drop (fair.other _ _) rfl ?_
    have job : ({ state.replicas r with
        calls := set (state.replicas r).calls call .cancelled
        lock := set (state.replicas r).lock (setup.partitionOf key) none } : Replica).job
          (setup.partitionOf key) = none := job_free (set_self _ _ _)
    simp only [Replica.view, job]

theorem step_of_callEvent (guarded : Guarded setup (state.replicas r))
    (here : At setup state r call record key stage)
    (event : CallEvent setup state r call record key stage action after)
    (fair : Fair allowed setup state action r p) :
    Step allowed r (state.shards p).claims ((state.replicas r).view setup p)
      (after.shards p).claims ((after.replicas r).view setup p) := by
  cases locked : stage.locked with
  | true =>
    by_cases same : p = setup.partitionOf key
    · subst same
      exact step_here guarded here locked event fair
    · exact step_elsewhere guarded here locked event same fair
  | false =>
    have free := guarded.not_held here locked
    cases event with
    | refuseEarly | pass | hitEarly | cancelWaiting =>
      rw [replicas_setReplica]
      exact .of_eq rfl (view_outside (free p) _)
    | acquire unlocked =>
      rw [replicas_setReplica]
      refine .of_eq rfl (view_congr rfl rfl rfl rfl rfl (fun _ _ => rfl) rfl rfl rfl ?_)
      by_cases same : p = setup.partitionOf key
      · subst same
        rw [job_free unlocked]
        simp [Replica.job, Replica.advance, Call.job?, Stage.job?]
      · refine job_congr (set_ne _ _ same) ?_
        exact fun other held => set_ne _ _ fun mine => free p (mine ▸ held)
    | refuse late => obtain rfl | rfl := late <;> contradiction
    | abandon abandons => cases abandons <;> contradiction
    | cancel suspended isLocked => exact absurd (isLocked.symm.trans locked) Bool.true_eq_false.mp
    | _ => contradiction

/-! ## The ownership loop -/

structure Filed (setup : Setup) (state : State) : Prop where
  log : ∀ p (index : Nat) entry key, (state.shards p).claims.log[index]? = some entry →
    entry.content.key? = some key → setup.partitionOf key = p
  inflight : ∀ p node key claim, (state.shards p).claims.inflight = some (node, key, claim) →
    setup.partitionOf key = p

theorem pendingOf_append (batch : List (Nat × Nat)) (fetched : Nat × Nat) (p : Nat) :
    pendingOf (batch ++ [fetched]) p =
      if fetched.1 = p then pendingOf batch p ++ [fetched.2] else pendingOf batch p := by
  by_cases same : fetched.1 = p <;> simp [pendingOf, List.filter_append, same]

theorem pendingOf_cons (fetched : Nat × Nat) (batch : List (Nat × Nat)) (p : Nat) :
    pendingOf (fetched :: batch) p =
      if fetched.1 = p then fetched.2 :: pendingOf batch p else pendingOf batch p := by
  by_cases same : fetched.1 = p <;> simp [pendingOf, same]

theorem step_of_loopEvent (guarded : Guarded setup (state.replicas r)) (filed : Filed setup state)
    (event : LoopEvent setup state r action after) (fair : Fair allowed setup state action r p) :
    Step allowed r (state.shards p).claims ((state.replicas r).view setup p)
      (after.shards p).claims ((after.replicas r).view setup p) := by
  have facts := guarded.orderly.phase
  cases event with rw [replicas_setReplica]
  | assign | deliverStop | deliver | settleCold | stop => exact .of_eq rfl rfl
  | revoke polling handled =>
    rename_i partitions
    by_cases revoked : p ∈ partitions
    · refine .of_move (.leave none) (fair.other _ _) rfl ?_
      simp [Replica.view, Replica.leave, Replica.job, revoked]
    · refine .of_move .forget (fair.other _ _) rfl ?_
      simp [Replica.view, Replica.leave, Replica.job, revoked]
  | purge purging =>
    rename_i gone revoked
    rw [purging] at facts
    by_cases purged : p ∈ gone
    · refine .of_move (.purge (facts.2.2.2.1 p purged)) (fair.other _ _) rfl ?_
      simp only [Replica.view, Replica.job, Local.mk.injEq, true_and, and_true]
      funext key
      by_cases here : setup.partitionOf key = p
      · subst here
        simp [purged]
      · simp [here]
    · refine .of_eq rfl (view_congr rfl rfl rfl rfl rfl ?_ rfl rfl rfl rfl)
      rintro key rfl
      simp [purged]
  | release releasing free =>
    rename_i partition rest
    rw [releasing] at facts
    by_cases same : p = partition
    · subst same
      refine .of_move (.release (facts.2.2.2 p List.mem_cons_self) (job_free free))
        (fair.other _ _) rfl ?_
      simp [Replica.view, Replica.job]
    · exact .of_eq rfl (view_congr (set_ne _ _ same) rfl rfl rfl rfl (fun _ _ => rfl) rfl rfl rfl
        rfl)
  | prepare preparing free =>
    rename_i partition todo all
    rw [shards_setReplica, shards_fence]
    by_cases same : p = partition
    · subst same
      rw [set_self]
      refine .of_move (.init (job_free free))
        (fair.plain _ _ _ (by rintro ⟨⟩) (by rintro ⟨⟩)) rfl ?_
      simp [Replica.view, Replica.job, State.epoch]
    · rw [set_ne _ _ same]
      exact .of_eq rfl (view_congr (set_ne _ _ same) (set_ne _ _ same) rfl rfl rfl
        (fun _ _ => rfl) (set_ne _ _ same) rfl rfl rfl)
  | prepareFailed preparing free =>
    rename_i partition todo all
    by_cases same : p = partition
    · subst same
      refine .of_move (.dismiss (job_free free)) (fair.other _ _) rfl ?_
      simp [Replica.view, Replica.leave, Replica.job]
    · refine .of_eq rfl (view_congr (set_ne _ _ same) ?_ rfl rfl rfl (fun _ _ => rfl) rfl rfl rfl
        rfl)
      simp [Replica.leave, same]
  | measure preparing =>
    rename_i all
    rw [shards_setReplica]
    rw [preparing] at facts
    obtain ⟨facts, _, handled⟩ := facts
    by_cases new : p ∈ all
    · have prepared := (facts.prepared p new).resolve_left List.not_mem_nil
      have empty : pendingOf (state.replicas r).batch p = [] := by rw [handled]; rfl
      refine .of_move (.replay prepared empty) (fair.other _ _) rfl ?_
      simp [Replica.view, Replica.job, new, List.lookup_graph _ (facts.taken p new)]
    · by_cases assigned : p ∈ (state.replicas r).assigned
      · have settled : (state.replicas r).status p ≠ .prepared := by
          have owned := (facts.assigned p assigned).resolve_left new
          intro prepared
          obtain replaying | ready := facts.present p new owned
          · cases prepared.symm.trans replaying
          · cases prepared.symm.trans ready
        refine .of_move (.measure settled) (fair.other _ _) rfl ?_
        simp [Replica.view, Replica.job, new, List.lookup_graph _ assigned]
      · refine .of_move .forget (fair.other _ _) rfl ?_
        have unmeasured : ((state.replicas r).assigned.map fun partition =>
            (partition, (state.shards partition).claims.log.length)).lookup p = none := by
          apply List.lookup_eq_none_iff.mpr
          simp only [List.mem_map, forall_exists_index, and_imp]
          rintro pair q member rfl
          simp only [bne_iff_ne]
          exact fun same => assigned (same ▸ member)
        simp [Replica.view, Replica.job, new, unmeasured]
  | install installing =>
    rw [installing] at facts
    refine .of_eq rfl (view_congr rfl ?_ rfl rfl rfl (fun _ _ => rfl) rfl rfl rfl rfl)
    simp only [Replica.leave]
    split
    · rename_i gone
      simp only [List.contains_iff_mem, List.mem_filter] at gone
      simp [facts.1.owned p gone.1] at gone
    · rfl
  | fetch polling assigned found =>
    rename_i partition entry
    by_cases same : p = partition
    · subst same
      refine .of_move (.read found) (fair.other _ _) rfl ?_
      cases gone : entry.gone <;> simp [Replica.view, Replica.job, pendingOf_append]
    · refine .of_eq rfl (view_congr rfl rfl (set_ne _ _ same) ?_ rfl (fun _ _ => rfl) rfl rfl rfl
        rfl)
      dsimp only
      split
      · rfl
      · rw [pendingOf_append, if_neg (fun equal => same equal.symm)]
  | process processing following found =>
    rename_i partition index rest entry
    rw [processing] at facts
    by_cases same : p = partition
    · subst same
      have following : ((state.replicas r).view setup p).pending = index :: pendingOf rest p := by
        simp only [Replica.view, following, pendingOf_cons, if_true]
      cases owns : (state.replicas r).owns p with
      | true =>
        refine .of_move (.process following found) (fair.other _ _) rfl ?_
        simp only [Replica.view, Replica.job, if_true, Local.mk.injEq, true_and, and_true]
        funext key
        by_cases about : entry.content.key? = some key
        · have here := filed.log p index entry key found about
          rw [if_pos here]
          exact Content.apply_of_key?_eq about _ _
        · rw [Content.apply_of_key?_ne about, Content.apply_of_key?_ne about]
      | false =>
        have left : (state.replicas r).status p = .absent := by
          apply facts.absent
          simpa [Replica.owns] using owns
        refine .of_move (.skip following left) (fair.other _ _) rfl ?_
        simp [Replica.view, Replica.job]
    · refine .of_eq rfl (view_congr rfl rfl rfl ?_ rfl ?_ rfl rfl rfl rfl)
      · show pendingOf rest p = _
        rw [following, pendingOf_cons, if_neg (fun equal => same equal.symm)]
      · intro key here
        dsimp only
        split
        · apply Content.apply_of_key?_ne
          intro about
          exact same (here.symm.trans (filed.log partition index entry key found about))
        · rfl
  | settleWarm processing handled complete =>
    by_cases finished : (state.replicas r).status p = .replaying ∧
        ((state.replicas r).targets.lookup p).isSome
    · obtain ⟨target, measured⟩ := Option.isSome_iff_exists.mp finished.2
      have reached : target ≤ (state.replicas r).position p := by
        simp only [Replica.replayComplete, Bool.and_eq_true, List.all_eq_true,
          decide_eq_true_eq] at complete
        obtain ⟨before, after, split, _⟩ := List.lookup_eq_some_iff.mp measured
        exact complete.2 (p, target) (by simp [split])
      have empty : pendingOf (state.replicas r).batch p = [] := by rw [handled]; rfl
      refine .of_move (.settle finished.1 measured reached empty) (fair.other _ _) rfl ?_
      simp only [Replica.view, Replica.job, if_pos finished]
    · refine .of_eq rfl (view_congr rfl ?_ rfl rfl rfl (fun _ _ => rfl) rfl rfl rfl rfl)
      dsimp only
      rw [if_neg finished]
  | quit stopping =>
    exact .of_move (.leave _) (fair.other _ _) rfl rfl
  | clear clearing =>
    rw [clearing] at facts
    refine .of_move (.purge (facts.2 p)) (fair.other _ _) rfl ?_
    simp [Replica.view, Replica.job]

/-! ## The broker and the whole -/

theorem step_at (q : Nat) (elsewhere : ∀ p, p ≠ q → after.shards p = state.shards p)
    (views : ∀ p, p ≠ q → (after.replicas r).view setup p = (state.replicas r).view setup p)
    (here : Step allowed r (state.shards q).claims ((state.replicas r).view setup q)
      (after.shards q).claims ((after.replicas r).view setup q)) :
    Step allowed r (state.shards p).claims ((state.replicas r).view setup p)
      (after.shards p).claims ((after.replicas r).view setup p) := by
  by_cases same : p = q
  · subst same
    exact here
  · exact .of_eq (by rw [elsewhere p same]) (views p same)

/-- Each step is taken by one replica; what happens at the broker by itself may count as a move of
any replica, or of the one whose request it answers. -/
structure Simulated (setup : Setup) (state : State) (action : Action) (after : State)
    (actor : Nat) : Prop where
  step : ∀ {allowed p}, Fair allowed setup state action actor p →
    Step allowed actor (state.shards p).claims ((state.replicas actor).view setup p)
      (after.shards p).claims ((after.replicas actor).view setup p)
  others : ∀ other, other ≠ actor → after.replicas other = state.replicas other

theorem simulated_brokerEvent (event : BrokerEvent state action after) :
    ∃ actor, Simulated setup state action after actor := by
  cases event with
  | land sent =>
    rename_i q node key claim
    refine ⟨node, fun fair => ?_, fun other different => set_ne _ _ different⟩
    have replicas : (set state.replicas node { state.replicas node with
        landed := set (state.replicas node).landed q true }) node = { state.replicas node with
          landed := set (state.replicas node).landed q true } := set_self _ _ _
    refine step_at q (fun p different => set_ne _ _ different) ?_ ?_
    · intro p different
      dsimp only [State.setReplica, State.setShard]
      rw [replicas]
      exact view_congr rfl rfl rfl rfl rfl (fun _ _ => rfl) rfl (set_ne _ _ different) rfl rfl
    · dsimp only [State.setReplica, State.setShard]
      rw [replicas, set_self]
      refine .of_move (.land sent) (fair.other _ _) rfl ?_
      simp [Replica.view, Replica.job]
  | expire =>
    rename_i q
    -- The writer keeps its place, so that a time-out counts as a late request of its own.
    cases writer : (state.shards q).claims.writer with
    | none =>
      refine ⟨0, fun fair => ?_, fun _ _ => rfl⟩
      refine step_at q (fun p different => set_ne _ _ different) (fun _ _ => rfl) ?_
      rw [shards_fence, set_self]
      refine .of_move .stray (fair.plain _ _ _ (by rintro ⟨⟩) (by rintro ⟨⟩)) ?_ rfl
      simp [writer]
    | some node =>
      refine ⟨node, fun fair => ?_, fun _ _ => rfl⟩
      refine step_at q (fun p different => set_ne _ _ different) (fun _ _ => rfl) ?_
      rw [shards_fence, set_self]
      refine .of_move .stray (fair.plain _ _ _ (by rintro ⟨⟩) (by rintro ⟨⟩)) ?_ rfl
      simp [writer]
  | stray =>
    rename_i node q
    refine ⟨node, fun fair => ?_, fun _ _ => rfl⟩
    refine step_at q (fun p different => set_ne _ _ different) (fun _ _ => rfl) ?_
    rw [shards_fence, set_self]
    exact .of_move .stray (fair.plain _ _ _ (by rintro ⟨⟩) (by rintro ⟨⟩)) rfl rfl
  | discard last =>
    rename_i q index
    refine ⟨0, fun fair => ?_, fun _ _ => rfl⟩
    refine step_at q (fun p different => set_ne _ _ different) (fun _ _ => rfl) ?_
    rw [shards_setShard, set_self]
    exact .of_move (.discard last) (fair.other _ _) rfl rfl

theorem others_of_callEvent (event : CallEvent setup state r call record key stage action after)
    (other : Nat) (different : other ≠ r) : after.replicas other = state.replicas other := by
  cases event <;> exact set_ne _ _ different

theorem others_of_loopEvent (event : LoopEvent setup state r action after) (other : Nat)
    (different : other ≠ r) : after.replicas other = state.replicas other := by
  cases event <;> exact set_ne _ _ different

theorem Event.at_replica {motive : Replica → Prop} (event : Event setup state action after)
    (same : motive (state.replicas r)) (start : ∀ call next, (state.replicas r).calls call = .idle →
      motive { state.replicas r with calls := set (state.replicas r).calls call next })
    (call : ∀ {call record key stage}, action.target = some (r, call) →
      At setup state r call record key stage →
      CallEvent setup state r call record key stage action after → motive (after.replicas r))
    (loop : LoopEvent setup state r action after → motive (after.replicas r))
    (land : ∀ q, motive { state.replicas r with landed := set (state.replicas r).landed q true }) :
    motive (after.replicas r) := by
  have changed {actor : Nat} {next : Replica} (mine : r = actor → motive next) :
      motive ((state.setReplica actor next).replicas r) := by
    by_cases own : r = actor
    · rw [← own, replicas_setReplica]
      exact mine own
    · rw [show (state.setReplica actor next).replicas r = state.replicas r from set_ne _ _ own]
      exact same
  cases event with
  | keyless idle | start idle => exact changed fun own => own ▸ start _ _ (own ▸ idle)
  | call target here event =>
    rename_i actor _ _ _ _
    by_cases own : r = actor
    · subst own
      exact call target here event
    · rw [others_of_callEvent event r own]
      exact same
  | loop event =>
    rename_i actor
    by_cases own : r = actor
    · subst own
      exact loop event
    · rw [others_of_loopEvent event r own]
      exact same
  | broker event =>
    cases event with
    | land sent => exact changed fun own => own ▸ land _
    | _ => exact same

theorem simulated (guarded : ∀ r, Guarded setup (state.replicas r)) (filed : Filed setup state)
    (event : Event setup state action after) :
    ∃ actor, Simulated setup state action after actor := by
  cases event with
  | keyless idle | start idle =>
    refine ⟨_, fun fair => ?_, fun _ different => set_ne _ _ different⟩
    rw [replicas_setReplica]
    refine .of_eq rfl (view_outside ((guarded _).locks.not_held ?_ _) _)
    intro record key stage running
    cases idle.symm.trans running
  | call mine here event =>
    exact ⟨_, fun fair => step_of_callEvent (guarded _) here event fair, others_of_callEvent event⟩
  | loop event =>
    exact ⟨_, fun fair => step_of_loopEvent (guarded _) filed event fair, others_of_loopEvent event⟩
  | broker event => exact simulated_brokerEvent event

end KrabkaGateway.Dedup
