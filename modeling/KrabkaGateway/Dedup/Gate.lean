import KrabkaGateway.Dedup.Events

/-!
# Locks and the ownership loop of one replica

A slot's lock is held by a call of that partition. The loop goes through its
callbacks in order, so that in each phase the statuses of the partitions are known;
in particular a warm replica is ready for every partition it owns. A call that found
its partition owned under the lock keeps it from being released.
-/

namespace KrabkaGateway.Dedup

open Lib Lib.ClaimLog Lib.FencedLog

/-! ## The loop -/

structure Settled (replica : Replica) : Prop where
  assigned : ∀ p, p ∈ replica.assigned ↔ p ∈ replica.owned
  present : ∀ p ∈ replica.owned, replica.status p = .replaying ∨ replica.status p = .ready
  absent : ∀ p, p ∉ replica.owned → replica.status p = .absent
  targets : replica.targets ≠ [] → ∀ p ∈ replica.owned, (replica.targets.lookup p).isSome

/-- Inside the assignment callback: the new partitions are fenced one after another. -/
structure Preparing (replica : Replica) (todo all : List Nat) : Prop where
  listed : ∀ p ∈ todo, p ∈ all
  owned : ∀ p ∈ replica.owned, p ∈ replica.assigned
  taken : ∀ p ∈ all, p ∈ replica.assigned
  assigned : ∀ p ∈ replica.assigned, p ∈ all ∨ p ∈ replica.owned
  prepared : ∀ p ∈ all, p ∈ todo ∨ replica.status p = .prepared
  present : ∀ p, p ∉ all → p ∈ replica.owned →
    replica.status p = .replaying ∨ replica.status p = .ready
  absent : ∀ p, p ∉ all → p ∉ replica.owned → replica.status p = .absent

/-- The end of the assignment callback: everything assigned has a target. -/
structure Installing (replica : Replica) : Prop where
  owned : ∀ p ∈ replica.owned, p ∈ replica.assigned
  present : ∀ p ∈ replica.assigned, replica.status p = .replaying ∨ replica.status p = .ready
  absent : ∀ p, p ∉ replica.assigned → replica.status p = .absent
  targets : ∀ p ∈ replica.assigned, (replica.targets.lookup p).isSome

def Replica.PhaseFacts (replica : Replica) : LoopPhase → Prop
  | .polling | .processing => Settled replica
  | .purging gone revoked =>
    Settled replica ∧ replica.warm = false ∧ replica.batch = [] ∧
      (∀ p ∈ gone, replica.status p = .absent) ∧ ∀ p ∈ revoked, replica.status p = .absent
  | .releasing revoked =>
    Settled replica ∧ replica.warm = false ∧ replica.batch = [] ∧
      ∀ p ∈ revoked, replica.status p = .absent
  | .preparing todo all =>
    Preparing replica todo all ∧ replica.warm = false ∧ replica.batch = []
  | .installing => Installing replica ∧ replica.warm = false ∧ replica.batch = []
  | .stopping => True
  | .clearing => replica.warm = false ∧ ∀ p, replica.status p = .absent
  | .exited => replica.warm = false

structure Orderly (replica : Replica) : Prop where
  ready : replica.warm = true → ∀ p ∈ replica.owned, replica.status p = .ready
  phase : replica.PhaseFacts replica.phase

theorem orderly_start : Orderly Replica.start where
  ready := by rintro ⟨⟩
  phase :=
    { assigned := fun _ => Iff.rfl
      present := by rintro p ⟨⟩
      absent := fun _ _ => rfl
      targets := fun some => absurd rfl some }

namespace Orderly

variable {replica : Replica}

variable (orderly : Orderly replica)
include orderly

/-- Steps that change nothing the loop relies on, except that the replica may stop being warm. -/
theorem frame {next : Replica} (owned : next.owned = replica.owned)
    (assigned : next.assigned = replica.assigned) (status : next.status = replica.status)
    (targets : next.targets = replica.targets) (batch : next.batch = replica.batch)
    (phase : next.phase = replica.phase) (warm : next.warm = replica.warm ∨ next.warm = false) :
    Orderly next := by
  have cold : replica.warm = false → next.warm = false := fun cold => warm.elim (·.trans cold) id
  have settled : Settled replica → Settled next := by
    intro settled
    constructor
    · rw [assigned, owned]
      exact settled.assigned
    · rw [status, owned]
      exact settled.present
    · rw [status, owned]
      exact settled.absent
    · rw [targets, owned]
      exact settled.targets
  constructor
  · intro isWarm
    rw [owned, status]
    exact orderly.ready (warm.elim (·.symm.trans isWarm) fun cold => by simp [cold] at isWarm)
  · have facts := orderly.phase
    rw [phase]
    cases here : replica.phase with rw [here] at facts
    | polling | processing => exact settled facts
    | purging | releasing =>
      obtain ⟨old, isCold, handled, rest⟩ := facts
      refine ⟨settled old, cold isCold, batch.trans handled, ?_⟩
      rw [status]
      exact rest
    | preparing todo all =>
      obtain ⟨old, isCold, handled⟩ := facts
      refine ⟨⟨old.listed, ?_, ?_, ?_, ?_, ?_, ?_⟩, cold isCold, batch.trans handled⟩
      all_goals simp only [owned, assigned, status]
      · exact old.owned
      · exact old.taken
      · exact old.assigned
      · exact old.prepared
      · exact old.present
      · exact old.absent
    | installing =>
      obtain ⟨old, isCold, handled⟩ := facts
      refine ⟨⟨?_, ?_, ?_, ?_⟩, cold isCold, batch.trans handled⟩
      all_goals simp only [owned, assigned, status, targets]
      · exact old.owned
      · exact old.present
      · exact old.absent
      · exact old.targets
    | stopping => trivial
    | clearing =>
      refine ⟨cold facts.1, ?_⟩
      rw [status]
      exact facts.2
    | exited => exact cold facts

theorem fail (call partition : Nat) (record : GatewayRecord) (error : GatewayError)
    (restart : Bool) :
    Orderly (replica.fail call partition record error restart) := by
  cases restart with
  | false => exact orderly.frame rfl rfl rfl rfl rfl rfl (.inl rfl)
  | true => exact orderly.frame rfl rfl rfl rfl rfl rfl (.inr rfl)

theorem revoke (partitions : List Nat) (polling : replica.phase = .polling)
    (handled : replica.batch = []) :
    Orderly { replica.leave partitions with
      warm := false
      emptyPolls := 0
      targets := []
      owned := replica.owned.filter fun partition => !partitions.contains partition
      assigned := replica.assigned.filter fun partition => !partitions.contains partition
      phase := .purging (replica.owned.filter partitions.contains) partitions } := by
  have settled : Settled replica := by
    have facts := orderly.phase
    rwa [polling] at facts
  refine ⟨by rintro ⟨⟩, ⟨?_, ?_, ?_, ?_⟩, rfl, handled, ?_, ?_⟩
  · intro p
    simp [settled.assigned p]
  · intro p owned
    simp only [List.mem_filter, Bool.not_eq_eq_eq_not, Bool.not_true] at owned
    simp only [Replica.leave, owned.2, Bool.false_eq_true, if_false]
    exact settled.present p owned.1
  · intro p left
    simp only [Replica.leave]
    split
    · rfl
    · rename_i kept
      apply settled.absent p
      intro owned
      exact left (List.mem_filter.mpr ⟨owned, by simpa using kept⟩)
  · exact fun none => absurd rfl none
  · intro p gone
    simp only [Replica.leave, (List.mem_filter.mp gone).2, if_true]
  · intro p revoked
    simp only [Replica.leave, List.contains_iff_mem.mpr revoked, if_true]

theorem purge {gone revoked : List Nat} (purging : replica.phase = .purging gone revoked)
    (map : String → Option ClaimValue) :
    Orderly { replica with
      map := map
      phase := if revoked.isEmpty then .polling else .releasing revoked } := by
  obtain ⟨settled, cold, handled, _, absent⟩ : replica.PhaseFacts (.purging gone revoked) :=
    purging ▸ orderly.phase
  refine ⟨orderly.ready, ?_⟩
  dsimp only
  split
  · exact { settled with }
  · exact ⟨{ settled with }, cold, handled, absent⟩

variable {partition : Nat}

theorem release {rest : List Nat} (releasing : replica.phase = .releasing (partition :: rest))
    (slot : Nat → Option Handle) :
    Orderly { replica with
      slot := slot
      phase := if rest.isEmpty then .polling else .releasing rest } := by
  obtain ⟨settled, cold, handled, absent⟩ : replica.PhaseFacts (.releasing (partition :: rest)) :=
    releasing ▸ orderly.phase
  refine ⟨orderly.ready, ?_⟩
  dsimp only
  split
  · exact { settled with }
  · exact ⟨{ settled with }, cold, handled,
      fun p member => absent p (List.mem_cons_of_mem _ member)⟩

theorem assign (partitions : List Nat) (polling : replica.phase = .polling)
    (handled : replica.batch = []) :
    Orderly { replica with
      warm := false
      assigned := replica.assigned ++
        partitions.filter fun partition => !replica.assigned.contains partition
      phase := .preparing partitions partitions } := by
  have settled : Settled replica := by
    have facts := orderly.phase
    rwa [polling] at facts
  have joined : ∀ p, p ∈ replica.assigned ++
      (partitions.filter fun partition => !replica.assigned.contains partition) ↔
        p ∈ replica.owned ∨ p ∈ partitions := by
    intro p
    have owned := settled.assigned p
    by_cases member : p ∈ replica.assigned <;> simp [member, ← owned]
  refine ⟨by rintro ⟨⟩, ⟨fun _ => id, ?_, ?_, ?_, fun p => Or.inl, ?_, ?_⟩, rfl, handled⟩
  · exact fun p owned => (joined p).mpr (Or.inl owned)
  · exact fun p new => (joined p).mpr (Or.inr new)
  · exact fun p member => ((joined p).mp member).symm
  · exact fun p _ => settled.present p
  · exact fun p _ => settled.absent p

theorem prepare {todo all : List Nat}
    (preparing : replica.phase = .preparing (partition :: todo) all) (slot : Nat → Option Handle)
    (unsure : Nat → Option String) :
    Orderly { replica with
      slot := slot
      status := set replica.status partition .prepared
      unsure := unsure
      phase := .preparing todo all } := by
  obtain ⟨facts, cold, handled⟩ : replica.PhaseFacts (.preparing (partition :: todo) all) :=
    preparing ▸ orderly.phase
  have new : partition ∈ all := facts.listed partition List.mem_cons_self
  have other : ∀ p, p ∉ all → set replica.status partition .prepared p = replica.status p :=
    fun p outside => set_ne _ _ fun same => outside (same ▸ new)
  refine ⟨fun warm => absurd warm (by simp [cold]), ⟨fun p member => facts.listed p
    (List.mem_cons_of_mem _ member), facts.owned, facts.taken, facts.assigned, ?_, ?_, ?_⟩, cold,
      handled⟩
  · intro p member
    by_cases same : p = partition
    · right
      rw [same]
      exact set_self _ _ _
    · dsimp only
      rw [set_ne _ _ same]
      exact (facts.prepared p member).imp_left fun next => (List.mem_cons.mp next).resolve_left same
  · intro p outside owned
    dsimp only
    rw [other p outside]
    exact facts.present p outside owned
  · intro p outside left
    dsimp only
    rw [other p outside]
    exact facts.absent p outside left

theorem stop : Orderly { replica with phase := .stopping } :=
  ⟨orderly.ready, trivial⟩

theorem measure {all : List Nat} (preparing : replica.phase = .preparing [] all)
    (length : Nat → Nat) (position : Nat → Nat) :
    Orderly { replica with
      position := position
      targets := replica.assigned.map fun partition => (partition, length partition)
      status := fun partition =>
        if all.contains partition then .replaying else replica.status partition
      phase := .installing } := by
  obtain ⟨facts, cold, handled⟩ : replica.PhaseFacts (.preparing [] all) :=
    preparing ▸ orderly.phase
  refine ⟨fun warm => absurd warm (by simp [cold]), ⟨facts.owned, ?_, ?_, ?_⟩, cold, handled⟩
  · intro p assigned
    dsimp only
    split
    · exact Or.inl rfl
    · rename_i old
      have outside : p ∉ all := by simpa using old
      exact facts.present p outside ((facts.assigned p assigned).resolve_left outside)
  · intro p outside
    have old : p ∉ all := fun member => outside (facts.taken p member)
    simp only [List.contains_iff_mem, old, if_false]
    exact facts.absent p old fun owned => outside (facts.owned p owned)
  · intro p assigned
    rw [List.lookup_graph _ assigned]
    rfl

theorem install (installing : replica.phase = .installing) :
    Orderly { replica.leave
        (replica.owned.filter fun partition => !replica.assigned.contains partition) with
      warm := false
      emptyPolls := 0
      owned := replica.assigned
      phase := .purging
        (replica.owned.filter fun partition => !replica.assigned.contains partition) [] } := by
  obtain ⟨facts, _, handled⟩ : replica.PhaseFacts .installing := installing ▸ orderly.phase
  have nothing : (replica.owned.filter fun partition => !replica.assigned.contains partition) =
      [] := by
    apply List.filter_eq_nil_iff.mpr
    intro p owned
    simp [facts.owned p owned]
  rw [nothing]
  refine ⟨by rintro ⟨⟩, ⟨fun _ => Iff.rfl, ?_, ?_, ?_⟩, rfl, handled,
    by rintro p ⟨⟩, by rintro p ⟨⟩⟩
  · exact facts.present
  · exact facts.absent
  · exact fun _ => facts.targets

theorem fetch (polling : replica.phase = .polling) (position : Nat → Nat)
    (batch : List (Nat × Nat)) :
    Orderly { replica with position := position, batch := batch } := by
  have settled : replica.PhaseFacts .polling := polling ▸ orderly.phase
  refine ⟨orderly.ready, ?_⟩
  dsimp only
  rw [polling]
  exact { settled with }

theorem deliver (polling : replica.phase = .polling) (emptyPolls : Nat) :
    Orderly { replica with emptyPolls := emptyPolls, phase := .processing } := by
  have settled : replica.PhaseFacts .polling := polling ▸ orderly.phase
  exact ⟨orderly.ready, { settled with }⟩

theorem process (processing : replica.phase = .processing) (batch : List (Nat × Nat))
    (map : String → Option ClaimValue) : Orderly { replica with batch := batch, map := map } := by
  have settled : replica.PhaseFacts .processing := processing ▸ orderly.phase
  refine ⟨orderly.ready, ?_⟩
  dsimp only
  rw [processing]
  exact { settled with }

theorem settleWarm (processing : replica.phase = .processing)
    (complete : replica.replayComplete = true) :
    Orderly { replica with
      warm := true
      status := fun partition =>
        if replica.status partition = .replaying ∧
            (replica.targets.lookup partition).isSome then .ready
        else replica.status partition
      phase := .polling } := by
  have settled : replica.PhaseFacts .processing := processing ▸ orderly.phase
  have measured : replica.targets ≠ [] := by
    intro none
    simp [Replica.replayComplete, none] at complete
  have ready : ∀ p ∈ replica.owned, (if replica.status p = .replaying ∧
      (replica.targets.lookup p).isSome then Status.ready else replica.status p) = .ready := by
    intro p owned
    obtain replaying | ready := settled.present p owned
    · rw [if_pos ⟨replaying, settled.targets measured p owned⟩]
    · rw [if_neg (by simp [ready]), ready]
  refine ⟨fun _ => ready,
    ⟨settled.assigned, fun p owned => Or.inr (ready p owned), ?_, settled.targets⟩⟩
  intro p left
  have absent := settled.absent p left
  dsimp only
  rw [if_neg (by simp [absent]), absent]

theorem settleCold (processing : replica.phase = .processing) :
    Orderly { replica with phase := .polling } := by
  have settled : replica.PhaseFacts .processing := processing ▸ orderly.phase
  exact ⟨orderly.ready, { settled with }⟩

omit orderly in
theorem quit (replica : Replica) :
    Orderly { replica with
      warm := false
      owned := []
      status := fun _ => .absent
      phase := .clearing } :=
  ⟨by rintro ⟨⟩, rfl, fun _ => rfl⟩

theorem clear (clearing : replica.phase = .clearing) (map : String → Option ClaimValue) :
    Orderly { replica with map := map, phase := .exited } := by
  have facts : replica.PhaseFacts .clearing := clearing ▸ orderly.phase
  exact ⟨orderly.ready, facts.1⟩

end Orderly

/-! ## Locks -/

variable (setup : Setup)

/-- The loop is giving the partition up. -/
def LoopPhase.Leaving (p : Nat) : LoopPhase → Prop
  | .purging _ revoked | .releasing revoked => p ∈ revoked
  | .clearing | .exited => True
  | _ => False

structure Locks (replica : Replica) : Prop where
  holder : ∀ p call, replica.lock p = some call → ∃ record key stage,
    replica.calls call = .running record key stage ∧ stage.locked = true ∧ setup.partitionOf key = p
  entered : ∀ p call record key, replica.lock p = some call →
    replica.calls call = .running record key .recheckWarm →
      p ∈ replica.owned ∨ replica.phase.Leaving p

theorem locks_start : Locks setup Replica.start where
  holder := by rintro p call ⟨⟩
  entered := by rintro p call record key ⟨⟩

namespace Locks

variable {setup} {replica : Replica} {call : Nat} {record : GatewayRecord} {key : String}
  {stage : Stage}

variable (locks : Locks setup replica)
include locks

theorem not_held (outside : ∀ record key stage, replica.calls call = .running record key stage →
      stage.locked = false) (p : Nat) : replica.lock p ≠ some call := by
  intro held
  obtain ⟨record, key, stage, running, locked, _⟩ := locks.holder p call held
  simp [outside record key stage running] at locked

theorem partition_eq (running : replica.calls call = .running record key stage) {p : Nat}
    (held : replica.lock p = some call) : p = setup.partitionOf key := by
  obtain ⟨_, other, _, found, _, same⟩ := locks.holder p call held
  rw [running, Call.running.injEq] at found
  rw [← same, found.2.1]

theorem outside (free : ∀ p, replica.lock p ≠ some call) (next : Call) :
    Locks setup { replica with calls := set replica.calls call next } := by
  have same : ∀ p other, replica.lock p = some other →
      set replica.calls call next other = replica.calls other := by
    intro p other held
    exact set_ne _ _ fun equal => free p (equal ▸ held)
  constructor
  · intro p other held
    obtain ⟨record, key, stage, running, rest⟩ := locks.holder p other held
    exact ⟨record, key, stage, (same p other held).trans running, rest⟩
  · intro p other record key held running
    exact locks.entered p other record key held ((same p other held).symm.trans running)

theorem acquire (free : ∀ p, replica.lock p ≠ some call) :
    Locks setup ({ replica with
      lock := set replica.lock (setup.partitionOf key) (some call) }.advance call record key
        .recheckOwner) := by
  have same : ∀ p other, p ≠ setup.partitionOf key →
      set replica.lock (setup.partitionOf key) (some call) p = some other →
        replica.lock p = some other ∧
          set replica.calls call (.running record key .recheckOwner) other =
            replica.calls other := by
    intro p other elsewhere held
    rw [set_ne _ _ elsewhere] at held
    exact ⟨held, set_ne _ _ fun equal => free p (equal ▸ held)⟩
  constructor
  · intro p other held
    by_cases here : p = setup.partitionOf key
    · subst here
      obtain rfl : call = other := Option.some.inj ((set_self _ _ _).symm.trans held)
      exact ⟨record, key, .recheckOwner, set_self _ _ _, rfl, rfl⟩
    · obtain ⟨held, calls⟩ := same p other here held
      obtain ⟨record, key, stage, running, rest⟩ := locks.holder p other held
      exact ⟨record, key, stage, calls.trans running, rest⟩
  · intro p other otherRecord otherKey held running
    by_cases here : p = setup.partitionOf key
    · subst here
      obtain rfl : call = other := Option.some.inj ((set_self _ _ _).symm.trans held)
      cases (set_self replica.calls call _).symm.trans running
    · obtain ⟨held, calls⟩ := same p other here held
      exact locks.entered p other otherRecord otherKey held (calls.symm.trans running)

theorem advance (running : replica.calls call = .running record key stage) {next : Stage}
    (locked : next.locked = true)
    (entered : next = .recheckWarm → setup.partitionOf key ∈ replica.owned) :
    Locks setup (replica.advance call record key next) := by
  constructor
  · intro p other held
    by_cases mine : other = call
    · subst mine
      exact ⟨record, key, next, set_self _ _ _, locked, (locks.partition_eq running held).symm⟩
    · obtain ⟨record, key, stage, found, rest⟩ := locks.holder p other held
      exact ⟨record, key, stage, (set_ne _ _ mine).trans found, rest⟩
  · intro p other otherRecord otherKey held found
    by_cases mine : other = call
    · subst mine
      have same := (set_self replica.calls other _).symm.trans found
      simp only [Call.running.injEq] at same
      rw [locks.partition_eq running held]
      exact Or.inl (entered same.2.2)
    · exact locks.entered p other otherRecord otherKey held ((set_ne _ _ mine).symm.trans found)

/-- A call that gives its lock back. -/
theorem release (running : replica.calls call = .running record key stage) (next : Call) :
    Locks setup { replica with
      calls := set replica.calls call next
      lock := set replica.lock (setup.partitionOf key) none } := by
  have same : ∀ p other, set replica.lock (setup.partitionOf key) none p = some other →
      replica.lock p = some other ∧ set replica.calls call next other = replica.calls other := by
    intro p other held
    by_cases here : p = setup.partitionOf key
    · subst here
      cases (set_self replica.lock _ _).symm.trans held
    · rw [set_ne _ _ here] at held
      exact ⟨held, set_ne _ _ fun equal => here (locks.partition_eq running (equal ▸ held))⟩
  constructor
  · intro p other held
    obtain ⟨held, calls⟩ := same p other held
    obtain ⟨record, key, stage, found, rest⟩ := locks.holder p other held
    exact ⟨record, key, stage, calls.trans found, rest⟩
  · intro p other otherRecord otherKey held found
    obtain ⟨held, calls⟩ := same p other held
    exact locks.entered p other otherRecord otherKey held (calls.symm.trans found)

theorem loop {next : Replica} (lock : next.lock = replica.lock) (calls : next.calls = replica.calls)
    (kept : ∀ p call, replica.lock p = some call → p ∈ replica.owned ∨ replica.phase.Leaving p →
      p ∈ next.owned ∨ next.phase.Leaving p) : Locks setup next := by
  constructor
  · rw [lock, calls]
    exact locks.holder
  · rw [lock, calls]
    exact fun p call record key held running =>
      kept p call held (locks.entered p call record key held running)

/-- The loop goes on from a phase in which no partition is being given up. -/
theorem stay {phase : LoopPhase} {next : Replica} (here : replica.phase = phase)
    (stays : ∀ p, ¬ phase.Leaving p) (lock : next.lock = replica.lock)
    (calls : next.calls = replica.calls) (owned : ∀ p ∈ replica.owned, p ∈ next.owned) :
    Locks setup next := by
  refine locks.loop lock calls fun p call held entered => Or.inl (owned p ?_)
  rw [here] at entered
  exact entered.resolve_right (stays p)

theorem fail (running : replica.calls call = .running record key stage) (error : GatewayError)
    (restart : Bool) :
    Locks setup (replica.fail call (setup.partitionOf key) record error restart) := by
  have released := locks.release running (.done record (.error error))
  cases restart with
  | false | true => exact ⟨released.holder, released.entered⟩

end Locks

/-! ## Every step -/

structure Guarded (replica : Replica) : Prop where
  orderly : Orderly replica
  locks : Locks setup replica

variable {setup}

theorem replicas_setReplica (state : State) (r : Nat) (replica : Replica) :
    (state.setReplica r replica).replicas r = replica :=
  set_self _ _ _

theorem guarded_setReplica {state : State} {r : Nat} {replica : Replica}
    (guarded : ∀ r, Guarded setup (state.replicas r)) (next : Guarded setup replica) (r' : Nat) :
    Guarded setup ((state.setReplica r replica).replicas r') := by
  by_cases same : r' = r
  · subst same
    rw [replicas_setReplica]
    exact next
  · rw [show (state.setReplica r replica).replicas r' = state.replicas r' from set_ne _ _ same]
    exact guarded r'

namespace Guarded

variable {state next : State} {action : Action} {r call : Nat} {record : GatewayRecord}
  {key : String} {stage : Stage}

variable {replica : Replica}

theorem outside (guarded : Guarded setup replica) (free : ∀ p, replica.lock p ≠ some call)
    (next : Call) : Guarded setup { replica with calls := set replica.calls call next } :=
  ⟨guarded.orderly.frame rfl rfl rfl rfl rfl rfl (.inl rfl), guarded.locks.outside free next⟩

theorem rewrite (guarded : Guarded setup replica) (slot : Nat → Option Handle)
    (map : String → Option ClaimValue) (unsure : Nat → Option String) (landed : Nat → Bool) :
    Guarded setup { replica with slot := slot, map := map, unsure := unsure, landed := landed } :=
  ⟨guarded.orderly.frame rfl rfl rfl rfl rfl rfl (.inl rfl),
    ⟨guarded.locks.holder, guarded.locks.entered⟩⟩

/-- A call that goes on under the lock. -/
theorem advance (guarded : Guarded setup replica)
    (running : replica.calls call = .running record key stage) {next : Stage}
    (locked : next.locked = true)
    (entered : next = .recheckWarm → setup.partitionOf key ∈ replica.owned)
    (slot : Nat → Option Handle) (map : String → Option ClaimValue) (unsure : Nat → Option String)
    (landed : Nat → Bool) :
    Guarded setup ({ replica with
      slot := slot, map := map, unsure := unsure,
      landed := landed }.advance call record key next) := by
  have advanced := guarded.locks.advance running locked entered
  exact ⟨guarded.orderly.frame rfl rfl rfl rfl rfl rfl (.inl rfl),
    ⟨advanced.holder, advanced.entered⟩⟩

/-- A call that ends under the lock. -/
theorem release (guarded : Guarded setup replica)
    (running : replica.calls call = .running record key stage) (next : Call)
    (slot : Nat → Option Handle) (map : String → Option ClaimValue) (unsure : Nat → Option String)
    (landed : Nat → Bool) :
    Guarded setup { replica with
      calls := set replica.calls call next
      lock := set replica.lock (setup.partitionOf key) none
      slot := slot, map := map, unsure := unsure, landed := landed } := by
  have released := guarded.locks.release running next
  exact ⟨guarded.orderly.frame rfl rfl rfl rfl rfl rfl (.inl rfl),
    ⟨released.holder, released.entered⟩⟩

theorem fail (guarded : Guarded setup replica)
    (running : replica.calls call = .running record key stage) (error : GatewayError)
    (restart : Bool) :
    Guarded setup (replica.fail call (setup.partitionOf key) record error restart) :=
  ⟨guarded.orderly.fail _ _ _ _ _, guarded.locks.fail running error restart⟩

theorem not_held (guarded : Guarded setup (state.replicas r))
    (here : At setup state r call record key stage) (early : stage.locked = false) (p : Nat) :
    (state.replicas r).lock p ≠ some call := by
  apply guarded.locks.not_held
  intro record key other running
  rw [here.running, Call.running.injEq] at running
  exact running.2.2 ▸ early

theorem cold_of_leaving (orderly : Orderly replica) {p : Nat} (leaving : replica.phase.Leaving p) :
    replica.warm = false := by
  have facts := orderly.phase
  cases phase : replica.phase <;> rw [phase] at leaving facts
  case purging => exact facts.2.1
  case releasing => exact facts.2.1
  case clearing => exact facts.1
  case exited => exact facts
  all_goals exact absurd leaving id

theorem ready_of_warm (guarded : Guarded setup (state.replicas r))
    (here : At setup state r call record key .recheckWarm)
    (isWarm : (state.replicas r).isWarm = true) :
    (state.replicas r).status (setup.partitionOf key) = .ready := by
  have warm : (state.replicas r).warm = true := (Bool.and_eq_true _ _ ▸ isWarm).1
  obtain owned | leaving := guarded.locks.entered _ _ _ _ (here.held rfl) here.running
  · exact guarded.orderly.ready warm _ owned
  · exact absurd ((cold_of_leaving guarded.orderly leaving).symm.trans warm) Bool.false_ne_true

theorem of_callEvent (guarded : ∀ r, Guarded setup (state.replicas r))
    (here : At setup state r call record key stage)
    (event : CallEvent setup state r call record key stage action next) :
    ∀ r, Guarded setup (next.replicas r) := by
  have mine := guarded r
  have running := here.running
  cases event with
  | refuseEarly early =>
    refine guarded_setReplica guarded (mine.outside (mine.not_held here ?_) _)
    obtain rfl | rfl := early <;> rfl
  | pass passes =>
    refine guarded_setReplica guarded (mine.outside (mine.not_held here ?_) _)
    cases passes <;> rfl
  | hitEarly | cancelWaiting =>
    exact guarded_setReplica guarded (mine.outside (mine.not_held here rfl) _)
  | acquire free =>
    exact guarded_setReplica guarded ⟨mine.orderly.frame rfl rfl rfl rfl rfl rfl (.inl rfl),
      mine.locks.acquire (mine.not_held here rfl)⟩
  | owner owns =>
    refine guarded_setReplica guarded (mine.advance running rfl (fun _ => ?_) _ _ _ _)
    exact List.contains_iff_mem.mp owns
  | warm | miss | reuse | opened | began | sentData | sentClaim | abandon | endTxn
  | commitRefused =>
    exact guarded_setReplica guarded (mine.advance running rfl (by rintro ⟨⟩) _ _ _ _)
  | refuse | hit | committed | cancel =>
    exact guarded_setReplica guarded (mine.release running _ _ _ _ _)
  | openFailed | beginFailed | abortConfirmed | abortFailed =>
    exact guarded_setReplica guarded (mine.fail running _ _)

theorem of_loopEvent (guarded : ∀ r, Guarded setup (state.replicas r))
    (event : LoopEvent setup state r action next) : ∀ r, Guarded setup (next.replicas r) := by
  obtain ⟨orderly, locks⟩ := guarded r
  cases event with
  | revoke polling handled =>
    refine guarded_setReplica guarded ⟨orderly.revoke _ polling handled, locks.loop rfl rfl ?_⟩
    rename_i partitions
    intro p call held entered
    have owned := entered.resolve_right (by rw [polling]; exact id)
    by_cases revoked : p ∈ partitions
    · exact Or.inr revoked
    · exact Or.inl (List.mem_filter.mpr ⟨owned, by simpa using revoked⟩)
  | purge purging =>
    refine guarded_setReplica guarded ⟨orderly.purge purging _, locks.loop rfl rfl ?_⟩
    rename_i gone revoked
    rintro p call held (owned | leaving)
    · exact Or.inl owned
    · rw [purging] at leaving
      right
      have some : p ∈ revoked := leaving
      cases revoked with
      | nil => cases some
      | cons first rest => exact some
  | release releasing free =>
    refine guarded_setReplica guarded ⟨orderly.release releasing _, locks.loop rfl rfl ?_⟩
    rename_i partition rest
    rintro p call held (owned | leaving)
    · exact Or.inl owned
    · rw [releasing] at leaving
      right
      have different : p ≠ partition := by
        rintro rfl
        rw [free] at held
        cases held
      have later : p ∈ rest := (List.mem_cons.mp leaving).resolve_left different
      cases rest with
      | nil => cases later
      | cons first others => exact later
  | assign polling handled =>
    exact guarded_setReplica guarded ⟨orderly.assign _ polling handled,
      locks.stay polling (fun _ => id) rfl rfl fun _ => id⟩
  | prepare preparing free =>
    exact guarded_setReplica guarded ⟨orderly.prepare preparing _ _,
      locks.stay preparing (fun _ => id) rfl rfl fun _ => id⟩
  | prepareFailed preparing free =>
    obtain ⟨_, cold, _⟩ : (state.replicas r).PhaseFacts (.preparing _ _) :=
      preparing ▸ orderly.phase
    exact guarded_setReplica guarded
      ⟨⟨fun warm => absurd (cold.symm.trans warm) Bool.false_ne_true, trivial⟩,
        locks.stay preparing (fun _ => id) rfl rfl fun _ => id⟩
  | measure preparing =>
    exact guarded_setReplica guarded ⟨orderly.measure preparing _ _,
      locks.stay preparing (fun _ => id) rfl rfl fun _ => id⟩
  | install installing =>
    obtain ⟨facts, _⟩ : (state.replicas r).PhaseFacts .installing := installing ▸ orderly.phase
    exact guarded_setReplica guarded ⟨orderly.install installing,
      locks.stay installing (fun _ => id) rfl rfl facts.owned⟩
  | fetch polling assigned found =>
    exact guarded_setReplica guarded ⟨orderly.fetch polling _ _, locks.loop rfl rfl fun _ _ _ => id⟩
  | deliverStop polling | stop polling =>
    exact guarded_setReplica guarded ⟨orderly.stop,
      locks.stay polling (fun _ => id) rfl rfl fun _ => id⟩
  | deliver polling running =>
    exact guarded_setReplica guarded ⟨orderly.deliver polling _,
      locks.stay polling (fun _ => id) rfl rfl fun _ => id⟩
  | process processing following found =>
    exact guarded_setReplica guarded
      ⟨orderly.process processing _ _, locks.loop rfl rfl fun _ _ _ => id⟩
  | settleWarm processing handled complete =>
    exact guarded_setReplica guarded ⟨orderly.settleWarm processing complete,
      locks.stay processing (fun _ => id) rfl rfl fun _ => id⟩
  | settleCold processing handled =>
    exact guarded_setReplica guarded ⟨orderly.settleCold processing,
      locks.stay processing (fun _ => id) rfl rfl fun _ => id⟩
  | quit stopping =>
    refine guarded_setReplica guarded ⟨.quit _, locks.loop rfl rfl ?_⟩
    exact fun p call held entered => Or.inr trivial
  | clear clearing =>
    refine guarded_setReplica guarded ⟨orderly.clear clearing _, locks.loop rfl rfl ?_⟩
    exact fun p call held entered => Or.inr trivial

theorem of_event (guarded : ∀ r, Guarded setup (state.replicas r))
    (event : Event setup state action next) : ∀ r, Guarded setup (next.replicas r) := by
  cases event with
  | keyless idle | start idle =>
    refine guarded_setReplica guarded ((guarded _).outside ((guarded _).locks.not_held ?_) _)
    intro record key stage running
    cases idle.symm.trans running
  | call mine here event => exact of_callEvent guarded here event
  | loop event => exact of_loopEvent guarded event
  | broker event =>
    cases event with
    | land sent => exact guarded_setReplica guarded ((guarded _).rewrite _ _ _ _)
    | expire | stray | discard => exact guarded

end Guarded

end KrabkaGateway.Dedup
