import KrabkaGateway.Dedup.View

/-!
# What holds in every run

No discipline of the replicas is needed for these: locks and loops are in order, claims
are in their partitions, and producers, commits and fetched records fit together for
every replica and partition.
-/

namespace KrabkaGateway.Dedup

open Lib Lib.ClaimLog Lib.FencedLog

variable {setup : Setup} {state after : State} {action : Action}

/-! ## Claims are in their partitions -/

/-- What the claim topic has before the first replica starts: claims and tombstones in the
partitions of their keys, and records that cannot be read. -/
structure ClaimTopic (setup : Setup) where
  log : Nat → List (Entry String ClaimValue)
  filed : ∀ p (index : Nat) entry key, (log p)[index]? = some entry →
    entry.content.key? = some key → setup.partitionOf key = p

def ClaimTopic.empty : ClaimTopic setup where
  log := fun _ => []
  filed := by simp

theorem filed_startingOn (topic : ClaimTopic setup) : Filed setup (State.startingOn topic.log) where
  log := topic.filed
  inflight := by rintro p node key claim ⟨⟩

namespace Filed

variable (filed : Filed setup state)
include filed

theorem at_shard (q : Nat) (elsewhere : ∀ p, p ≠ q → after.shards p = state.shards p)
    (log : ∀ (index : Nat) entry key, (after.shards q).claims.log[index]? = some entry →
      entry.content.key? = some key → setup.partitionOf key = q)
    (inflight : ∀ node key claim, (after.shards q).claims.inflight = some (node, key, claim) →
      setup.partitionOf key = q) : Filed setup after := by
  constructor
  · intro p index entry key found
    by_cases same : p = q
    · subst same
      exact log index entry key found
    · rw [elsewhere p same] at found
      exact filed.log p index entry key found
  · intro p node key claim sent
    by_cases same : p = q
    · subst same
      exact inflight node key claim sent
    · rw [elsewhere p same] at sent
      exact filed.inflight p node key claim sent

theorem fence (q : Nat) (writer : Option Nat) : Filed setup (state.fence q writer) := by
  refine filed.at_shard q (fun p different => set_ne _ _ different) ?_ ?_
  · rw [shards_fence, set_self]
    exact filed.log q
  · rw [shards_fence, set_self]
    rintro node key claim ⟨⟩

theorem of_callEvent {r call : Nat} {record : GatewayRecord} {key : String} {stage : Stage}
    (event : CallEvent setup state r call record key stage action after) : Filed setup after := by
  have same : Filed setup { state with replicas := after.replicas } := ⟨filed.log, filed.inflight⟩
  cases event with
  | opened empty =>
    have fenced := filed.fence (setup.partitionOf key) (some r)
    exact ⟨fenced.log, fenced.inflight⟩
  | sentData | abortConfirmed =>
    refine filed.at_shard (setup.partitionOf key) (fun p different => set_ne _ _ different) ?_ ?_
    · rw [shards_setReplica, shards_setShard, set_self]
      exact filed.log _
    · rw [shards_setReplica, shards_setShard, set_self]
      exact filed.inflight _
  | endTxn busy =>
    refine filed.at_shard (setup.partitionOf key) (fun p different => set_ne _ _ different) ?_ ?_
    · rw [shards_setReplica, shards_setShard, set_self]
      dsimp only
      split <;> exact filed.log _
    · rw [shards_setReplica, shards_setShard, set_self]
      dsimp only
      split
      · rintro node other claim ⟨⟩
        rfl
      · exact filed.inflight _
  | commitRefused sent lost =>
    refine filed.at_shard (setup.partitionOf key) (fun p different => set_ne _ _ different) ?_ ?_
    · rw [shards_setReplica, shards_setShard, set_self]
      dsimp only
      split <;> exact filed.log _
    · rw [shards_setReplica, shards_setShard, set_self]
      dsimp only
      split
      · rintro node other claim ⟨⟩
      · exact filed.inflight _
  | _ => exact same

theorem of_event (event : Event setup state action after) : Filed setup after := by
  have same : Filed setup { state with replicas := after.replicas } := ⟨filed.log, filed.inflight⟩
  cases event with
  | keyless | start => exact same
  | call mine here event => exact filed.of_callEvent event
  | loop event =>
    cases event with
    | prepare preparing free =>
      rename_i r partition todo all
      have fenced := filed.fence partition (some r)
      exact ⟨fenced.log, fenced.inflight⟩
    | _ => exact same
  | broker event =>
    cases event with
    | land sent =>
      rename_i q node key claim
      have home := filed.inflight q node key claim sent
      refine filed.at_shard q (fun p different => set_ne _ _ different) ?_ ?_
      · simp only [shards_setReplica, shards_setShard, set_self]
        intro index entry other found about
        rw [getElem?_record] at found
        split at found
        · cases found
          obtain rfl : key = other := Option.some.inj about
          exact home
        · exact filed.log q index entry other found about
      · simp only [shards_setReplica, shards_setShard, set_self]
        rintro node other claim ⟨⟩
    | expire | stray => exact filed.fence _ _
    | discard last =>
      rename_i q index
      refine filed.at_shard q (fun p different => set_ne _ _ different) ?_ ?_
      · rw [shards_setShard, set_self]
        intro other entry key found about
        obtain ⟨before, present, content, _⟩ := getElem?_of_discard found
        exact filed.log q other before key present (content ▸ about)
      · rw [shards_setShard, set_self]
        exact filed.inflight q

end Filed

/-! ## Every run -/

structure Sound (setup : Setup) (state : State) : Prop where
  guarded : ∀ r, Guarded setup (state.replicas r)
  filed : Filed setup state
  sane : ∀ r p, Sane r (state.shards p).claims ((state.replicas r).view setup p)

theorem sound_startingOn (topic : ClaimTopic setup) : Sound setup (State.startingOn topic.log) where
  guarded := fun _ => ⟨orderly_start, locks_start setup⟩
  filed := filed_startingOn topic
  sane := by
    intro r p
    constructor
    · rintro handle ⟨⟩
    · rintro key value ⟨⟩
    · rintro key ⟨⟩
    · rintro (prepared | replaying)
      · cases prepared
      · cases replaying
    · rintro key ⟨⟩
    · rintro key value ⟨⟩
    · exact Nat.zero_le _
    · exact List.Pairwise.nil
    · rintro index ⟨⟩
    · rintro index later entry ⟨⟩

theorem sound_initial : Sound setup State.initial :=
  sound_startingOn .empty

theorem fair_trivial (r p : Nat) : Fair (fun _ _ _ => True) setup state action r p :=
  ⟨fun _ _ _ _ _ => trivial, fun _ _ _ _ _ _ _ => trivial, fun _ _ _ _ _ _ => trivial⟩

theorem Sound.step (sound : Sound setup state) (taken : state.step setup action = some after) :
    Sound setup after := by
  have event := event_of_step taken
  refine ⟨Guarded.of_event sound.guarded event, sound.filed.of_event event, ?_⟩
  obtain ⟨actor, moves⟩ := simulated sound.guarded sound.filed event
  intro r p
  have moved := moves.step (fair_trivial actor p)
  by_cases same : r = actor
  · subst same
    exact moved.sane (sound.sane r p)
  · rw [moves.others r same]
    exact moved.sane_other (sound.sane actor p) same (sound.sane r p)

theorem sound_of_run {actions : List Action}
    (run : Run.exec (State.step setup) State.initial actions = some state) : Sound setup state :=
  Run.exec_preserves_always (Sound setup) (fun _ _ _ sound taken => sound.step taken) sound_initial
    run

end KrabkaGateway.Dedup
