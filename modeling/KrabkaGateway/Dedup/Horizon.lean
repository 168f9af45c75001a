import Mathlib.Data.List.Dedup
import KrabkaGateway.Dedup.Acceptance
import KrabkaGateway.Dedup.Backing
import KrabkaGateway.Lib.FencedRetention

/-!
# The dedup horizon

Retention discards claims from the claim topic, and no replica is told: a claim map loses
a key only to a tombstone, a revocation or the end of the loop. In every run in which the
last claim of a key is discarded only while the replica has nothing to do with the key's
partition, and in which a commit is confirmed only while its partition is owned, the map
has no more keys than the owned partitions have claims, and a key without a claim is
accepted as new.
-/

namespace KrabkaGateway.Dedup

open Lib Lib.ClaimLog Lib.FencedLog

/-- The loop is between giving up the partition and taking its keys out of the map. -/
def LoopPhase.handsOver (p : Nat) : LoopPhase → Bool
  | .purging gone _ => gone.contains p
  | .clearing => true
  | _ => false

def State.retainedClaims (state : State) (partitions : List Nat) : List (Nat × Nat) :=
  partitions.dedup.flatMap fun p =>
    ((List.range (state.shards p).claims.log.length).filter fun index =>
      (state.shards p).claims.log[index]?.any fun entry => entry.value?.isSome).map
        fun index => (p, index)

/-- The replica neither owns the partition nor hands it over, has fetched none of its records and
has no call under the lock of its slot. -/
def Replica.detached (replica : Replica) (p : Nat) : Bool :=
  !replica.owns p && !replica.phase.handsOver p && (pendingOf replica.batch p).isEmpty &&
    (replica.lock p).isNone

/-- The last claim of a key is discarded only while the replica is detached from the partition, and
a commit of the replica is confirmed only while it owns the partition. -/
def Spares (setup : Setup) (r : Nat) (state : State) : Action → Bool
  | .discard p index =>
    match (state.shards p).claims.log[index]? with
    | some ⟨.claim key _, _⟩ =>
      retained (discard (state.shards p).claims.log index) key || (state.replicas r).detached p
    | _ => true
  | .committed actor call =>
    match (state.replicas actor).calls call with
    | .running _ key _ => actor ≠ r || (state.replicas r).owns (setup.partitionOf key)
    | _ => true
  | _ => true

variable {setup : Setup} {state after : State} {action : Action} {r p : Nat}

/-! ## The log -/

theorem log_setShard {shard : Shard} {q : Nat}
    (same : shard.claims.log = (state.shards q).claims.log) :
    ((state.setShard q shard).shards p).claims.log = (state.shards p).claims.log := by
  by_cases here : p = q
  · subst here
    rw [shards_setShard, set_self, same]
  · rw [shards_setShard, set_ne _ _ here]

theorem log_fence (q : Nat) (writer : Option Nat) :
    ((state.fence q writer).shards p).claims.log = (state.shards p).claims.log :=
  log_setShard rfl

variable {key : String}

theorem log_of_callEvent {call : Nat} {record : GatewayRecord} {stage : Stage}
    (event : CallEvent setup state r call record key stage action after) :
    (after.shards p).claims.log = (state.shards p).claims.log := by
  cases event with
  | opened empty => exact log_fence _ _
  | sentData | abortConfirmed => exact log_setShard rfl
  | endTxn | commitRefused => exact log_setShard (by split <;> rfl)
  | _ => rfl

theorem log_of_loopEvent (event : LoopEvent setup state r action after) :
    (after.shards p).claims.log = (state.shards p).claims.log := by
  cases event with
  | prepare preparing free => exact log_fence _ _
  | _ => rfl

theorem retained_of_event (event : Event setup state action after)
    (kept : retained (state.shards p).claims.log key = true)
    (spared : ∀ index, action = .discard p index →
      retained (discard (state.shards p).claims.log index) key = true) :
    retained (after.shards p).claims.log key = true := by
  cases event with
  | keyless | start => exact kept
  | call mine here event => exact log_of_callEvent event ▸ kept
  | loop event => exact log_of_loopEvent event ▸ kept
  | broker event =>
    cases event with
    | land sent =>
      rename_i q node own claim
      by_cases here : p = q
      · subst here
        simp only [State.setReplica, State.setShard, set_self]
        exact retained_record_of_retained kept own claim
      · simpa only [State.setReplica, State.setShard, set_ne _ _ here] using kept
    | expire | stray => exact (log_fence _ _).symm ▸ kept
    | discard last =>
      rename_i q index
      by_cases here : p = q
      · subst here
        rw [shards_setShard, set_self]
        exact spared index rfl
      · rw [shards_setShard, set_ne _ _ here]
        exact kept

/-! ## The map -/

def InCustody (setup : Setup) (replica : Replica) : Prop :=
  ∀ key, replica.map key ≠ none → replica.owns (setup.partitionOf key) = true ∨
    replica.phase.handsOver (setup.partitionOf key) = true

theorem Replica.owns_iff {replica : Replica} : replica.owns p = true ↔ p ∈ replica.owned := by
  simp [Replica.owns]

namespace InCustody

variable {replica next : Replica}

variable (custody : InCustody setup replica)
include custody

/-- The map, the partitions and the phase are all that matters. -/
theorem frame (map : next.map = replica.map) (owned : next.owned = replica.owned)
    (phase : next.phase = replica.phase) : InCustody setup next := by
  unfold InCustody Replica.owns
  rw [map, owned, phase]
  exact custody

theorem rephase (map : next.map = replica.map) (owned : next.owned = replica.owned)
    {phase : LoopPhase} (now : replica.phase = phase) (idle : ∀ p, phase.handsOver p = false) :
    InCustody setup next := by
  intro key found
  rw [map] at found
  refine Or.inl ?_
  rw [Replica.owns, owned]
  exact (custody key found).resolve_right (by simp [now, idle])

theorem fail (call partition : Nat) (record : GatewayRecord) (error : GatewayError)
    (restart : Bool) :
    InCustody setup (replica.fail call partition record error restart) := by
  cases restart with
  | false | true => exact custody.frame rfl rfl rfl

theorem not_holds (detached : replica.detached p = true) (log : List (Entry String ClaimValue))
    (key : String) : (replica.view setup p).holds log key = false := by
  simp only [Replica.detached, Bool.and_eq_true, Bool.not_eq_true', List.isEmpty_iff,
    Option.isNone_iff_eq_none] at detached
  obtain ⟨⟨⟨left, purged⟩, handled⟩, free⟩ := detached
  refine Local.not_holds ?_ handled (job_free free) log
  by_cases home : setup.partitionOf key = p
  · rw [view_cache home]
    by_contra found
    simpa [home, left, purged] using custody key found
  · exact if_neg home

/-- A key of an owned partition. -/
theorem insert (key : String) (claim : Option ClaimValue)
    (owns : replica.owns (setup.partitionOf key) = true)
    (map : next.map = set replica.map key claim) (owned : next.owned = replica.owned)
    (phase : next.phase = replica.phase) : InCustody setup next := by
  intro other found
  unfold Replica.owns
  rw [owned, phase]
  by_cases same : other = key
  · subst same
    exact Or.inl owns
  · rw [map, set_ne _ _ same] at found
    exact custody other found

omit custody in
theorem of_callEvent {call : Nat} {record : GatewayRecord} {stage : Stage}
    (custody : InCustody setup (state.replicas r))
    (event : CallEvent setup state r call record key stage action after)
    (owned : action = .committed r call → (state.replicas r).owns (setup.partitionOf key) = true) :
    InCustody setup (after.replicas r) := by
  cases event with
  | committed sent landed =>
    rw [replicas_setReplica]
    exact custody.insert key _ (owned rfl) rfl rfl rfl
  | openFailed | beginFailed | abortConfirmed | abortFailed =>
    exact replicas_setReplica _ _ _ ▸ custody.fail _ _ _ _ _
  | _ => exact replicas_setReplica _ _ _ ▸ custody.frame rfl rfl rfl

omit custody in
theorem of_loopEvent (filed : Filed setup state) (custody : InCustody setup (state.replicas r))
    (event : LoopEvent setup state r action after) : InCustody setup (after.replicas r) := by
  cases event with rw [replicas_setReplica]
  | revoke polling handled =>
    rename_i partitions
    intro key found
    have owns := (custody key found).resolve_right (by simp [polling, LoopPhase.handsOver])
    rw [Replica.owns_iff] at owns
    by_cases gone : setup.partitionOf key ∈ partitions
    · exact Or.inr (by simp [LoopPhase.handsOver, owns, gone])
    · exact Or.inl (by simp [Replica.owns, owns, gone])
  | purge purging =>
    rename_i gone revoked
    intro key found
    dsimp only at found
    split at found
    · exact absurd rfl found
    · rename_i kept
      have held := custody key found
      rw [purging] at held
      exact Or.inl (held.resolve_right kept)
  | install installing =>
    intro key found
    have owns := (custody key found).resolve_right (by simp [installing, LoopPhase.handsOver])
    rw [Replica.owns_iff] at owns
    by_cases kept : setup.partitionOf key ∈ (state.replicas r).assigned
    · exact Or.inl (by simp [Replica.owns, kept])
    · exact Or.inr (by simp [LoopPhase.handsOver, owns, kept])
  | process processing next found =>
    rename_i partition index rest entry
    by_cases owns : (state.replicas r).owns partition = true
    · have filedHere := filed.log partition index entry
      obtain ⟨content, gone⟩ := entry
      cases content with
      | claim key claim =>
        refine custody.insert key (some claim) ?_ ?_ rfl rfl
        · rw [filedHere key found rfl, owns]
        · exact if_pos owns
      | tombstone key =>
        refine custody.insert key none ?_ ?_ rfl rfl
        · rw [filedHere key found rfl, owns]
        · exact if_pos owns
      | other => exact custody.frame (if_pos owns) rfl rfl
    · exact custody.frame (if_neg owns) rfl rfl
  | quit stopping =>
    exact fun key found => Or.inr rfl
  | clear clearing =>
    exact fun key found => absurd rfl found
  | fetch polling assigned found => exact custody.frame rfl rfl rfl
  | release phase | assign phase | prepare phase | prepareFailed phase | measure phase
  | deliverStop phase | deliver phase | settleWarm phase | settleCold phase | stop phase =>
    exact custody.rephase rfl rfl phase fun _ => rfl

end InCustody

/-! ## Every run that spares what the replica holds -/

structure Covered (setup : Setup) (r : Nat) (state : State) : Prop where
  sound : Sound setup state
  supported : ∀ p, Supported (state.shards p).claims ((state.replicas r).view setup p)
  custody : InCustody setup (state.replicas r)

theorem covered_initial : Covered setup r State.initial := by
  have custody : InCustody setup (State.initial.replicas r) := fun key found => absurd rfl found
  refine ⟨sound_initial, fun p key holds => ?_, custody⟩
  rw [custody.not_holds rfl] at holds
  cases holds

namespace Covered

variable {key : String}

variable (covered : Covered setup r state)
include covered

theorem spared (spares : Spares setup r state action = true)
    (held : ((state.replicas r).view setup p).holds (state.shards p).claims.log key = true)
    {index : Nat} (discards : action = .discard p index) :
    retained (discard (state.shards p).claims.log index) key = true := by
  have kept := covered.supported p key held
  subst discards
  by_cases other : ∀ entry, (state.shards p).claims.log[index]? = some entry →
      entry.claims key = false
  · exact retained_discard kept other
  · push Not at other
    obtain ⟨⟨content, gone⟩, found, own⟩ := other
    obtain ⟨claim, rfl⟩ := Entry.claims_iff.mp (Bool.of_not_eq_false own)
    simp only [Spares, found, Bool.or_eq_true] at spares
    refine spares.resolve_right fun detached => ?_
    rw [covered.custody.not_holds detached] at held
    cases held

theorem custody_of_event (spares : Spares setup r state action = true)
    (event : Event setup state action after) : InCustody setup (after.replicas r) := by
  have custody := covered.custody
  refine event.at_replica custody (fun _ _ _ => custody.frame rfl rfl rfl) ?_
    (custody.of_loopEvent covered.sound.filed) fun _ => custody.frame rfl rfl rfl
  intro call record key stage _ here event
  refine custody.of_callEvent event ?_
  rintro rfl
  simpa [Spares, here.running] using spares

theorem step (spares : Spares setup r state action = true)
    (taken : state.step setup action = some after) : Covered setup r after := by
  have sound := covered.sound
  have event := event_of_step taken
  refine ⟨sound.step taken, fun p => ?_, covered.custody_of_event spares event⟩
  have kept (key : String)
      (held : ((state.replicas r).view setup p).holds (state.shards p).claims.log key = true)
      (there : retained (state.shards p).claims.log key = true) :
      retained (after.shards p).claims.log key = true :=
    retained_of_event event there fun _ => covered.spared spares held
  obtain ⟨actor, moves⟩ := simulated sound.guarded sound.filed event
  have moved := moves.step (fair_trivial actor p)
  by_cases same : r = actor
  · subst same
    exact moved.supported (sound.sane r p) (covered.supported p) kept
  · rw [moves.others r same]
    exact (covered.supported p).foreign (sound.sane r p) (moved.change (sound.sane actor p)) kept

theorem retained_of_map (found : (state.replicas r).map key ≠ none) :
    retained (state.shards (setup.partitionOf key)).claims.log key = true := by
  apply covered.supported
  rw [Local.holds_iff, view_cache rfl]
  exact Or.inl found

end Covered

/-! ## Counting -/

variable {partitions : List Nat}

theorem mem_retainedClaims {index : Nat} :
    (p, index) ∈ state.retainedClaims partitions ↔ p ∈ partitions ∧
      ∃ entry, (state.shards p).claims.log[index]? = some entry ∧ entry.value?.isSome = true := by
  simp only [State.retainedClaims, List.mem_flatMap, List.mem_dedup, List.mem_map, List.mem_filter,
    List.mem_range, Prod.mk.injEq, Option.any_eq_true]
  constructor
  · rintro ⟨q, member, place, ⟨_, present⟩, rfl, rfl⟩
    exact ⟨member, present⟩
  · rintro ⟨member, entry, found, there⟩
    exact ⟨p, member, index, ⟨(List.getElem?_eq_some_iff.mp found).1, entry, found, there⟩, rfl,
      rfl⟩

theorem length_le_retainedClaims {keys : List String} (distinct : keys.Nodup)
    (listed : ∀ key ∈ keys, setup.partitionOf key ∈ partitions) (claimed : ∀ key ∈ keys,
      retained (state.shards (setup.partitionOf key)).claims.log key = true) :
    keys.length ≤ (state.retainedClaims partitions).length := by
  have place : ∀ key, ∃ index : Nat, key ∈ keys → ∃ entry : Entry String ClaimValue,
      (state.shards (setup.partitionOf key)).claims.log[index]? = some entry ∧
        entry.claims key = true ∧ entry.gone = false := by
    intro key
    by_cases member : key ∈ keys
    · obtain ⟨index, entry, found⟩ := retained_iff.mp (claimed key member)
      exact ⟨index, fun _ => ⟨entry, found⟩⟩
    · exact ⟨0, fun inside => absurd inside member⟩
  choose index found using place
  have injective : ∀ key ∈ keys, ∀ other ∈ keys,
      (setup.partitionOf key, index key) = (setup.partitionOf other, index other) →
        key = other := by
    intro key member other otherMember same
    obtain ⟨entry, present, own, _⟩ := found key member
    obtain ⟨again, presentAgain, otherOwn, _⟩ := found other otherMember
    obtain ⟨partitions, indices⟩ := Prod.mk.inj same
    rw [partitions, indices, presentAgain] at present
    cases present
    obtain ⟨_, content⟩ := Entry.claims_iff.mp own
    obtain ⟨_, otherContent⟩ := Entry.claims_iff.mp otherOwn
    rw [content] at otherContent
    cases otherContent
    rfl
  have inside : keys.map (fun key => (setup.partitionOf key, index key)) ⊆
      state.retainedClaims partitions := by
    intro pair member
    obtain ⟨key, own, rfl⟩ := List.mem_map.mp member
    obtain ⟨⟨content, gone⟩, present, claims, there⟩ := found key own
    refine mem_retainedClaims.mpr ⟨listed key own, _, present, ?_⟩
    obtain ⟨value, rfl⟩ := Entry.claims_iff.mp claims
    simp only at there
    simp [Entry.value?, there]
  simpa using (List.Nodup.map_on injective distinct).length_le_of_subset inside

/-! ## The horizon -/

structure WithinHorizon (setup : Setup) (r : Nat) (state : State) : Prop where
  /-- There are no more keys than claims, but for the keys that are being taken out. -/
  bounded : ∀ keys : List String, keys.Nodup →
    (∀ key ∈ keys, (state.replicas r).map key ≠ none ∧
      (state.replicas r).phase.handsOver (setup.partitionOf key) = false) →
    keys.length ≤ (state.retainedClaims (state.replicas r).owned).length
  /-- A key whose claims are discarded is not a duplicate, -/
  forgotten : ∀ key, retained (state.shards (setup.partitionOf key)).claims.log key = false →
    (state.replicas r).map key = none
  /-- and a warm owner with a usable producer writes a new record for it. -/
  renewed : ∀ call record key place offset, record.idempotencyKey = some key →
    retained (state.shards (setup.partitionOf key)).claims.log key = false →
    (state.replicas r).calls call = .idle →
    (state.replicas r).owns (setup.partitionOf key) = true →
    (state.replicas r).isWarm = true →
    (state.replicas r).lock (setup.partitionOf key) = none →
    (∀ own, (state.replicas r).slot (setup.partitionOf key) = some own →
      own = ⟨state.epoch (setup.partitionOf key), .clean⟩) →
    ∃ after, Run.exec (State.step setup) state
        (newRecordCall r call (setup.partitionOf key)
          ((state.replicas r).slot (setup.partitionOf key)) record place offset) = some after ∧
      (after.replicas r).calls call = .done record (.ok ⟨place, offset, false⟩)

theorem Covered.withinHorizon (covered : Covered setup r state) : WithinHorizon setup r state := by
  have forgotten : ∀ key,
      retained (state.shards (setup.partitionOf key)).claims.log key = false →
      (state.replicas r).map key = none := by
    intro key lost
    by_contra found
    rw [covered.retained_of_map found] at lost
    cases lost
  refine ⟨?_, forgotten, ?_⟩
  · intro keys distinct held
    have listed : ∀ key ∈ keys, setup.partitionOf key ∈ (state.replicas r).owned := by
      intro key member
      obtain ⟨found, staying⟩ := held key member
      rw [← Replica.owns_iff]
      exact (covered.custody key found).resolve_right (by simp [staying])
    exact length_le_retainedClaims distinct listed
      fun key member => covered.retained_of_map (held key member).1
  · intro call record key place offset keyed lost idle owns warm free usable
    exact new_record_accepted idle keyed owns warm free rfl usable (forgotten key lost) place offset

/-- The partition is given up, its one claim is discarded, and the partition is taken again. -/
def returnAfterDiscard (r : Nat) : List Action :=
  [.revoke r [0], .purge r, .release r, .discard 0 0, .assign r [0], .prepare r true, .measure r,
    .install r, .purge r, .fetch r 0, .deliver r, .settle r]

/-- A commit that is confirmed after the revocation leaves its key in the map. -/
example : ∃ state, Run.exec (State.step oneShard) State.initial
    (warmUp 0 ++ (produceCall 0 0 "orders" 7).dropLast ++
      [.revoke 0 [0], .purge 0, .committed 0 0, .release 0]) = some state ∧
      (state.replicas 0).phase = .polling ∧ (state.replicas 0).owned = [] ∧
      (state.replicas 0).map "order-7" = some ⟨"orders", 0, 7⟩ :=
  ⟨_, rfl, rfl, rfl, rfl⟩

end KrabkaGateway.Dedup
