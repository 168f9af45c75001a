import KrabkaGateway.Dedup.Sound

/-!
# Every claim has its data record

The claim map is keyed by the idempotency key alone, and a hit is answered with the
place of whatever record the claim is about. In every run whose keyed records go, key by
key, to one topic, that record is one of the caller's topic with the caller's key.
-/

namespace KrabkaGateway.Dedup

open Lib Lib.ClaimLog Lib.FencedLog

def dataRecord (key : String) (claim : ClaimValue) : DataRecord where
  idempotencyKey := key
  topic := claim.topic
  partition := claim.partition
  offset := claim.offset

/-- The claim a transaction will make, once its data record has a place. -/
def Stage.claim? : Stage → Option ClaimValue
  | .sendingClaim claim | .ending claim | .committing claim => some claim
  | _ => none

variable (fits : String → String → Prop)

/-- What is known of a call: its record, and where a hit comes from. -/
def Call.Backed (records : List DataRecord) : Call → Prop
  | .running record key stage =>
    record.idempotencyKey = some key ∧ fits key record.topic ∧
      ∀ claim, stage.claim? = some claim → fits key claim.topic
  | .done record (.ok outcome) =>
    outcome.deduplicated = true → ∀ key, record.idempotencyKey = some key →
      ∃ topic, fits key topic ∧ fits key record.topic ∧
        ⟨key, topic, outcome.partition, outcome.offset⟩ ∈ records
  | _ => True

/-- What the open transaction of a call has written so far. -/
def Stage.Written (key : String) (shard : Shard) (slot : Option Handle) (landed : Bool)
    (records : List DataRecord) : Stage → Prop
  | .sendingClaim claim | .ending claim =>
    ∀ epoch, slot = some ⟨epoch, .busy⟩ → epoch = shard.claims.epoch →
      shard.draft = some (dataRecord key claim)
  | .committing claim => landed = true → dataRecord key claim ∈ records
  | _ => True

def Replica.Written (replica : Replica) (p : Nat) (shard : Shard) (records : List DataRecord) :
    Prop :=
  ∀ call record key stage, replica.lock p = some call →
    replica.calls call = .running record key stage →
      stage.Written key shard (replica.slot p) (replica.landed p) records

structure Backed (state : State) : Prop where
  calls : ∀ r call, ((state.replicas r).calls call).Backed fits state.records
  log : ∀ p (index : Nat) entry key claim, (state.shards p).claims.log[index]? = some entry →
    entry.content = .claim key claim →
      dataRecord key claim ∈ state.records ∧ fits key claim.topic
  map : ∀ r key claim, (state.replicas r).map key = some claim →
    dataRecord key claim ∈ state.records ∧ fits key claim.topic
  written : ∀ r p, (state.replicas r).Written p (state.shards p) state.records
  inflight : ∀ p node key claim, (state.shards p).claims.inflight = some (node, key, claim) →
    (state.shards p).draft = some (dataRecord key claim) ∧ fits key claim.topic

def Action.Fits : Action → Prop
  | .start _ _ record => ∀ key, record.idempotencyKey = some key → fits key record.topic
  | _ => True

theorem backed_initial : Backed fits State.initial where
  calls := fun _ _ => trivial
  log := by
    intro p index entry key claim found
    simp [State.initial, State.startingOn] at found
  map := by rintro r key claim ⟨⟩
  written := by rintro r p call record key stage ⟨⟩
  inflight := by rintro p node key claim ⟨⟩

section

variable {setup : Setup} {state after : State} {action : Action} {r call : Nat}
  {record : GatewayRecord} {key : String} {stage : Stage} {replica next : Replica} {p : Nat}
  {shard : Shard} {records more : List DataRecord}

/-! ## Transactions -/

namespace Replica.Written

theorem frame (written : replica.Written p shard records) (lock : next.lock p = replica.lock p)
    (calls : ∀ call, replica.lock p = some call → next.calls call = replica.calls call)
    (slot : next.slot p = replica.slot p) (landed : next.landed p = replica.landed p) :
    next.Written p shard records := by
  intro call record key stage held running
  rw [lock] at held
  rw [calls call held] at running
  rw [slot, landed]
  exact written call record key stage held running

theorem of_free (free : replica.lock p = none) : replica.Written p shard records := by
  intro call record key stage held
  cases free.symm.trans held

theorem of_held (held : replica.lock p = some call)
    (running : replica.calls call = .running record key stage)
    (own : stage.Written key shard (replica.slot p) (replica.landed p) records) :
    replica.Written p shard records := by
  intro other otherRecord otherKey otherStage otherHeld otherRunning
  obtain rfl : call = other := Option.some.inj (held.symm.trans otherHeld)
  have same := running.symm.trans otherRunning
  simp only [Call.running.injEq] at same
  obtain ⟨_, rfl, rfl⟩ := same
  exact own

theorem of_stale (written : replica.Written p shard records) {after : Shard}
    (stale : ∀ epoch, replica.slot p = some ⟨epoch, .busy⟩ → epoch ≠ after.claims.epoch) :
    replica.Written p after records := by
  intro call record key stage held running
  have own := written call record key stage held running
  cases stage with
  | sendingClaim | ending => exact fun epoch busy same => absurd same (stale epoch busy)
  | committing claim => exact own
  | _ => trivial

theorem of_shard (written : replica.Written p shard records) {after : Shard}
    (draft : after.draft = shard.draft) (epoch : after.claims.epoch = shard.claims.epoch) :
    replica.Written p after records := by
  intro call record key stage held running
  have own := written call record key stage held running
  cases stage with
  | sendingClaim | ending =>
    intro number busy same
    rw [draft]
    exact own number busy (same.trans epoch)
  | committing claim => exact own
  | _ => trivial

end Replica.Written

theorem Sound.stale_of_fence (sound : Sound setup state) (r p : Nat) (writer : Option Nat)
    (epoch : Nat) (busy : (state.replicas r).slot p = some ⟨epoch, .busy⟩) :
    epoch ≠ ((state.shards p).claims.fence writer).epoch := by
  have current : epoch ≤ (state.shards p).claims.epoch := ((sound.sane r p).current _ busy).1
  simp only [Shared.fence]
  omega

theorem Sound.stale_of_current (sound : Sound setup state) {other epoch : Nat}
    (different : other ≠ r) {handle : HandleState}
    (own : (state.replicas r).slot p = some ⟨epoch, handle⟩)
    (current : epoch = (state.shards p).claims.epoch) (number : Nat)
    (busy : (state.replicas other).slot p = some ⟨number, .busy⟩) :
    number ≠ (state.shards p).claims.epoch := by
  intro same
  have mine := ((sound.sane r p).current _ own).2 current
  have theirs := ((sound.sane other p).current _ busy).2 same
  exact different (Option.some.inj (theirs.symm.trans mine))

theorem Sound.not_inflight (sound : Sound setup state) {epoch : Nat} {job : Job String ClaimValue}
    (running : (state.replicas r).job p = some job)
    (busy : (state.replicas r).slot p = some ⟨epoch, .busy⟩)
    (current : epoch = (state.shards p).claims.epoch) (sent : Nat × String × ClaimValue) :
    (state.shards p).claims.inflight ≠ some sent := by
  obtain ⟨node, key, claim⟩ := sent
  intro found
  have writer := ((sound.sane r p).current _ busy).2 current
  have theirs := ((sound.sane node p).inflight key claim)
  by_cases same : node = r
  · subst same
    refine (sound.sane node p).not_inflight ?_ key claim found
    apply (sound.sane node p).unsure_eq_none running
    intro number unresolved
    cases busy.symm.trans unresolved
  · exact same (Option.some.inj ((theirs found).1.symm.trans writer))

/-! ## One step -/

variable {fits}

namespace Backed

variable (backed : Backed fits state)
include backed

theorem setReplica (calls : ∀ call, (replica.calls call).Backed fits state.records)
    (map : ∀ key claim, replica.map key = some claim →
      dataRecord key claim ∈ state.records ∧ fits key claim.topic)
    (written : ∀ p, replica.Written p (state.shards p) state.records) :
    Backed fits (state.setReplica r replica) := by
  have others : ∀ other, other ≠ r →
      (state.setReplica r replica).replicas other = state.replicas other :=
    fun other different => set_ne _ _ different
  refine { backed with calls := ?_, map := ?_, written := ?_ }
  · intro other
    by_cases same : other = r
    · subst same
      rw [replicas_setReplica]
      exact calls
    · rw [others other same]
      exact backed.calls other
  · intro other
    by_cases same : other = r
    · subst same
      rw [replicas_setReplica]
      exact map
    · rw [others other same]
      exact backed.map other
  · intro other
    by_cases same : other = r
    · subst same
      rw [replicas_setReplica]
      exact written
    · rw [others other same]
      exact backed.written other

theorem setShard (log : ∀ (index : Nat) entry, shard.claims.log[index]? = some entry →
      ∃ before, (state.shards p).claims.log[index]? = some before ∧ entry.content = before.content)
    (inflight : ∀ node key claim, shard.claims.inflight = some (node, key, claim) →
      shard.draft = some (dataRecord key claim) ∧ fits key claim.topic)
    (written : ∀ r, (state.replicas r).Written p shard state.records) :
    Backed fits (state.setShard p shard) := by
  refine { backed with log := ?_, inflight := ?_, written := ?_ }
  · intro q
    rw [shards_setShard]
    by_cases same : q = p
    · subst same
      rw [set_self]
      intro index entry key claim found content
      obtain ⟨before, present, same⟩ := log index entry found
      exact backed.log q index before key claim present (same.symm.trans content)
    · rw [set_ne _ _ same]
      exact backed.log q
  · intro r q
    rw [shards_setShard]
    by_cases same : q = p
    · subst same
      rw [set_self]
      exact written r
    · rw [set_ne _ _ same]
      exact backed.written r q
  · intro q
    rw [shards_setShard]
    by_cases same : q = p
    · subst same
      rw [set_self]
      exact inflight
    · rw [set_ne _ _ same]
      exact backed.inflight q

theorem fence (sound : Sound setup state) (p : Nat) (writer : Option Nat) :
    Backed fits (state.fence p writer) := by
  refine backed.setShard (fun _ entry found => ⟨entry, found, rfl⟩) ?_ ?_
  · rintro node key claim ⟨⟩
  · intro r
    exact (backed.written r p).of_stale (sound.stale_of_fence r p writer)

variable {last : Call}

omit backed in
theorem set_calls {calls : Nat → Call} (backed : ∀ call, (calls call).Backed fits records)
    (own : last.Backed fits records) (other : Nat) :
    (set calls call last other).Backed fits records := by
  by_cases same : other = call
  · subst same
    rw [set_self]
    exact own
  · rw [set_ne _ _ same]
    exact backed other

theorem outside (free : ∀ p, (state.replicas r).lock p ≠ some call)
    (own : last.Backed fits state.records) :
    Backed fits (state.setReplica r { state.replicas r with
      calls := set (state.replicas r).calls call last }) := by
  refine backed.setReplica (set_calls (backed.calls r) own) (backed.map r) fun p => ?_
  refine (backed.written r p).frame rfl ?_ rfl rfl
  exact fun other held => set_ne _ _ fun same => free p (same ▸ held)

variable {slot : Nat → Option Handle} {unsure : Nat → Option String}

/-- A call that goes on under the lock. -/
theorem advance (locks : Locks setup (state.replicas r))
    (running : (state.replicas r).calls call = .running record key stage)
    (held : (state.replicas r).lock (setup.partitionOf key) = some call) {following : Stage}
    {landed : Nat → Bool} (topic : ∀ claim, following.claim? = some claim → fits key claim.topic)
    (sameSlot : ∀ p, p ≠ setup.partitionOf key → slot p = (state.replicas r).slot p)
    (sameLanded : ∀ p, p ≠ setup.partitionOf key → landed p = (state.replicas r).landed p)
    (own : following.Written key (state.shards (setup.partitionOf key))
      (slot (setup.partitionOf key)) (landed (setup.partitionOf key)) state.records) :
    Backed fits (state.setReplica r ({ state.replicas r with
      slot := slot
      unsure := unsure
      landed := landed }.advance call record key following)) := by
  have asked := backed.calls r call
  rw [running] at asked
  refine backed.setReplica (set_calls (backed.calls r) ⟨asked.1, asked.2.1, topic⟩) (backed.map r)
    fun p => ?_
  by_cases same : p = setup.partitionOf key
  · subst same
    exact .of_held held (set_self _ _ _) own
  · refine (backed.written r p).frame rfl ?_ (sameSlot p same) (sameLanded p same)
    exact fun other mine => set_ne _ _ fun equal => same (locks.partition_eq running (equal ▸ mine))

/-- A call that gives the lock back. -/
theorem release (locks : Locks setup (state.replicas r))
    (running : (state.replicas r).calls call = .running record key stage)
    {map : String → Option ClaimValue} {restart warm : Bool} (own : last.Backed fits state.records)
    (sameSlot : ∀ p, p ≠ setup.partitionOf key → slot p = (state.replicas r).slot p)
    (known : ∀ key claim, map key = some claim →
      dataRecord key claim ∈ state.records ∧ fits key claim.topic) :
    Backed fits (state.setReplica r { state.replicas r with
      calls := set (state.replicas r).calls call last
      lock := set (state.replicas r).lock (setup.partitionOf key) none
      slot := slot
      map := map
      unsure := unsure
      restartRequired := restart
      warm := warm }) := by
  refine backed.setReplica (set_calls (backed.calls r) own) known fun p => ?_
  by_cases same : p = setup.partitionOf key
  · subst same
    exact .of_free (set_self _ _ _)
  · refine (backed.written r p).frame (set_ne _ _ same) ?_ (sameSlot p same) rfl
    exact fun other mine => set_ne _ _ fun equal => same (locks.partition_eq running (equal ▸ mine))

theorem fail (locks : Locks setup (state.replicas r))
    (running : (state.replicas r).calls call = .running record key stage) (error : GatewayError)
    (restart : Bool) :
    Backed fits (state.setReplica r ((state.replicas r).fail call (setup.partitionOf key) record
      error restart)) := by
  have others : ∀ p, p ≠ setup.partitionOf key →
      set (state.replicas r).slot (setup.partitionOf key) none p = (state.replicas r).slot p :=
    fun p different => set_ne _ _ different
  cases restart with
  | false | true => exact backed.release locks running trivial others (backed.map r)

variable {claim : ClaimValue}

theorem hit_backed (running : (state.replicas r).calls call = .running record key stage)
    (found : (state.replicas r).map key = some claim) :
    (Call.done record (.ok (hit claim))).Backed fits state.records := by
  have asked := backed.calls r call
  rw [running] at asked
  obtain ⟨keyed, topic, _⟩ := asked
  obtain ⟨member, claimed⟩ := backed.map r key claim found
  intro _ other askedFor
  obtain rfl : key = other := Option.some.inj (keyed.symm.trans askedFor)
  exact ⟨claim.topic, claimed, topic, member⟩

theorem of_callEvent (sound : Sound setup state) (here : At setup state r call record key stage)
    (event : CallEvent setup state r call record key stage action after) : Backed fits after := by
  have running := here.running
  have locks := (sound.guarded r).locks
  have asked := backed.calls r call
  rw [running] at asked
  obtain ⟨keyed, topic, claimed⟩ := asked
  have slotElsewhere : ∀ {α : Type} (table : Nat → α) value p, p ≠ setup.partitionOf key →
      set table (setup.partitionOf key) value p = table p := fun _ _ _ => set_ne _ _
  cases event with
  | refuseEarly early =>
    refine backed.outside ((sound.guarded r).not_held here ?_) trivial
    obtain rfl | rfl := early <;> rfl
  | pass passes =>
    refine backed.outside ((sound.guarded r).not_held here ?_) ⟨keyed, topic, ?_⟩
    · cases passes <;> rfl
    · cases passes <;> rintro claim ⟨⟩
  | hitEarly found =>
    exact backed.outside ((sound.guarded r).not_held here rfl) (backed.hit_backed running found)
  | acquire free =>
    refine backed.setReplica (set_calls (backed.calls r) ⟨keyed, topic, by rintro claim ⟨⟩⟩)
      (backed.map r) fun p => ?_
    by_cases same : p = setup.partitionOf key
    · subst same
      exact .of_held (set_self _ _ _) (set_self _ _ _) trivial
    · refine (backed.written r p).frame (set_ne _ _ same) ?_ rfl rfl
      exact fun other mine => set_ne _ _ fun equal =>
        (sound.guarded r).not_held here rfl p (equal ▸ mine)
  | refuse | cancel => exact backed.release locks running trivial (fun _ _ => rfl) (backed.map r)
  | owner | warm | miss | reuse =>
    exact backed.advance locks running (here.held rfl) (by rintro claim ⟨⟩) (fun _ _ => rfl)
      (fun _ _ => rfl) trivial
  | hit found =>
    exact backed.release locks running (backed.hit_backed running found) (fun _ _ => rfl)
      (backed.map r)
  | opened empty =>
    have fenced := backed.fence sound (setup.partitionOf key) (some r)
    exact fenced.advance locks running (here.held rfl) (by rintro claim ⟨⟩) (slotElsewhere _ _)
      (fun _ _ => rfl) trivial
  | openFailed | beginFailed | abortFailed => exact backed.fail locks running _ _
  | began clean =>
    exact backed.advance locks running (here.held rfl) (by rintro claim ⟨⟩) (slotElsewhere _ _)
      (fun _ _ => rfl) trivial
  | sentData busy current =>
    rename_i epoch place offset
    have drafted : Backed fits (state.setShard (setup.partitionOf key)
        { state.shards (setup.partitionOf key) with
          draft := some ⟨key, record.topic, place, offset⟩ }) := by
      refine backed.setShard (fun _ entry found => ⟨entry, found, rfl⟩) ?_ ?_
      · intro node other claim sent
        exact absurd sent
          (sound.not_inflight (job_held (here.held rfl) running) busy current _)
      · intro other
        by_cases same : other = r
        · subst same
          exact .of_held (here.held rfl) running trivial
        · exact (backed.written other _).of_stale
            (sound.stale_of_current same busy current)
    refine drafted.advance locks running (here.held rfl) ?_ (fun _ _ => rfl) (fun _ _ => rfl) ?_
    · rintro claim ⟨rfl⟩
      exact topic
    · intro number _ _
      rw [shards_setShard, set_self]
      rfl
  | sentClaim busy current =>
    rename_i epoch claim
    have own := backed.written r _ call record key _ (here.held rfl) running
    exact backed.advance locks running (here.held rfl) claimed (fun _ _ => rfl)
      (fun _ _ => rfl) own
  | abandon abandons =>
    refine backed.advance locks running (here.held ?_) (by rintro claim ⟨⟩) (fun _ _ => rfl)
      (fun _ _ => rfl) trivial
    cases abandons <;> rfl
  | endTxn busy =>
    rename_i epoch claim
    have own := backed.written r _ call record key _ (here.held rfl) running
    refine (backed.setShard ?_ ?_ ?_).advance locks running (here.held rfl) claimed
      (slotElsewhere _ _) (slotElsewhere _ _) ?_
    · dsimp only
      split <;> exact fun _ entry found => ⟨entry, found, rfl⟩
    · dsimp only
      split
      · rename_i current
        rintro node other sent ⟨⟩
        exact ⟨own epoch busy current, claimed claim rfl⟩
      · exact backed.inflight _
    · intro other
      refine (backed.written other _).of_shard rfl ?_
      dsimp only
      split <;> rfl
    · intro landed
      cases (set_self _ _ _).symm.trans landed
  | committed sent landed =>
    rename_i epoch claim
    have own := backed.written r _ call record key _ (here.held rfl) running
    refine backed.release locks running (by rintro ⟨⟩) (slotElsewhere _ _) ?_
    intro other value found
    dsimp only at found
    by_cases same : other = key
    · subst same
      rw [set_self, Option.some.injEq] at found
      subst found
      exact ⟨own landed, claimed claim rfl⟩
    · rw [set_ne _ _ same] at found
      exact backed.map r other value found
  | commitRefused sent lost =>
    refine (backed.setShard ?_ ?_ ?_).advance locks running (here.held rfl) (by rintro claim ⟨⟩)
      (slotElsewhere _ _) (fun _ _ => rfl) trivial
    · dsimp only
      split <;> exact fun _ entry found => ⟨entry, found, rfl⟩
    · dsimp only
      split
      · rintro node other claim ⟨⟩
      · exact backed.inflight _
    · intro other
      refine (backed.written other _).of_shard rfl ?_
      dsimp only
      split <;> rfl
  | abortConfirmed busy =>
    rename_i epoch error
    have settled : Backed fits (state.setShard (setup.partitionOf key)
        { state.shards (setup.partitionOf key) with
          draft :=
            if epoch = state.epoch (setup.partitionOf key) then none
            else (state.shards (setup.partitionOf key)).draft }) := by
      refine backed.setShard (fun _ entry found => ⟨entry, found, rfl⟩) ?_ ?_
      · intro node other claim found
        by_cases current : epoch = state.epoch (setup.partitionOf key)
        · exact absurd found
            (sound.not_inflight (job_held (here.held rfl) running) busy current _)
        · dsimp only
          rw [if_neg current]
          exact backed.inflight _ node other claim found
      · intro other
        by_cases current : epoch = state.epoch (setup.partitionOf key)
        · by_cases same : other = r
          · subst same
            exact .of_held (here.held rfl) running trivial
          · exact (backed.written other _).of_stale
              (sound.stale_of_current same busy current)
        · exact (backed.written other _).of_shard (if_neg current) rfl
    exact settled.fail locks running _ _
  | cancelWaiting => exact backed.outside ((sound.guarded r).not_held here rfl) trivial

theorem loop (calls : next.calls = (state.replicas r).calls)
    (lock : next.lock = (state.replicas r).lock) (landed : next.landed = (state.replicas r).landed)
    (slot : ∀ p, next.slot p = (state.replicas r).slot p ∨ (state.replicas r).lock p = none)
    (map : ∀ key claim, next.map key = some claim → (state.replicas r).map key = some claim ∨
      dataRecord key claim ∈ state.records ∧ fits key claim.topic) :
    Backed fits (state.setReplica r next) := by
  refine backed.setReplica ?_ ?_ ?_
  · rw [calls]
    exact backed.calls r
  · intro key claim found
    exact (map key claim found).elim (backed.map r key claim) id
  · intro p
    obtain same | free := slot p
    · exact (backed.written r p).frame (congrFun lock p) (fun call _ => congrFun calls call) same
        (congrFun landed p)
    · exact .of_free ((congrFun lock p).trans free)

theorem of_loopEvent (sound : Sound setup state) (event : LoopEvent setup state r action after) :
    Backed fits after := by
  have changed : ∀ {q : Nat} {value : Option Handle}, (state.replicas r).lock q = none → ∀ p,
      set (state.replicas r).slot q value p = (state.replicas r).slot p ∨
        (state.replicas r).lock p = none := by
    intro q value free p
    by_cases same : p = q
    · exact Or.inr (same ▸ free)
    · exact Or.inl (set_ne _ _ same)
  cases event with
  | purge purging =>
    refine backed.loop rfl rfl rfl (fun _ => .inl rfl) ?_
    intro key claim found
    dsimp only at found
    split at found
    · cases found
    · exact Or.inl found
  | release _ free | prepareFailed _ free =>
    exact backed.loop rfl rfl rfl (changed free) fun _ _ => Or.inl
  | prepare preparing free =>
    rename_i partition todo all
    have fenced := backed.fence sound partition (some r)
    exact fenced.loop rfl rfl rfl (changed free) fun _ _ => Or.inl
  | process processing following found =>
    rename_i partition index rest entry
    refine backed.loop rfl rfl rfl (fun _ => .inl rfl) ?_
    intro key claim cached
    dsimp only at cached
    split at cached
    · cases content : entry.content with rw [content] at cached
      | claim other value =>
        by_cases same : key = other
        · subst same
          rw [Content.apply, set_self, Option.some.injEq] at cached
          subst cached
          exact Or.inr (backed.log partition index entry key value found content)
        · rw [Content.apply, set_ne _ _ same] at cached
          exact Or.inl cached
      | tombstone other =>
        by_cases same : key = other
        · subst same
          rw [Content.apply, set_self] at cached
          cases cached
        · rw [Content.apply, set_ne _ _ same] at cached
          exact Or.inl cached
      | other => exact Or.inl cached
    · exact Or.inl cached
  | clear clearing =>
    refine backed.loop rfl rfl rfl (fun _ => .inl rfl) ?_
    rintro key claim ⟨⟩
  | _ => exact backed.loop rfl rfl rfl (fun _ => .inl rfl) fun _ _ => Or.inl

theorem land (sound : Sound setup state) {q node : Nat}
    (sent : (state.shards q).claims.inflight = some (node, key, claim)) :
    Backed fits
      { (state.setShard q
          { claims :=
              { (state.shards q).claims with
                inflight := none
                log := ClaimLog.record (state.shards q).claims.log key claim
                data := (state.shards q).claims.data ++
                  [(key, (state.shards q).claims.log.length)] }
            draft := none }).setReplica node
              { state.replicas node with landed := set (state.replicas node).landed q true } with
        records := state.records ++ (state.shards q).draft.toList } := by
  obtain ⟨draft, topic⟩ := backed.inflight q node key claim sent
  have grown : ∀ {record}, record ∈ state.records →
      record ∈ state.records ++ (state.shards q).draft.toList :=
    fun member => List.mem_append_left _ member
  have new : dataRecord key claim ∈ state.records ++ (state.shards q).draft.toList := by
    simp [draft]
  have replicas : ∀ r, ∃ landed, (set state.replicas node { state.replicas node with
      landed := set (state.replicas node).landed q true }) r =
        { state.replicas r with landed := landed } ∧
          ∀ p, landed p = true → (state.replicas r).landed p = true ∨ r = node ∧ p = q := by
    intro r
    by_cases same : r = node
    · subst same
      refine ⟨_, set_self _ _ _, fun p => ?_⟩
      by_cases here : p = q
      · exact fun _ => Or.inr ⟨rfl, here⟩
      · rw [set_ne _ _ here]
        exact Or.inl
    · exact ⟨(state.replicas r).landed, set_ne _ _ same, fun _ => Or.inl⟩
  constructor
  · intro r other
    obtain ⟨landed, same, _⟩ := replicas r
    dsimp only [State.setReplica, State.setShard]
    rw [same]
    have old := backed.calls r other
    dsimp only
    cases call : (state.replicas r).calls other with rw [call] at old
    | running record asked stage => exact old
    | done record result =>
      cases result with
      | ok outcome =>
        intro hit asked keyed
        obtain ⟨topic, claimed, wanted, member⟩ := old hit asked keyed
        exact ⟨topic, claimed, wanted, grown member⟩
      | error error => trivial
    | idle | cancelled => trivial
  · intro p index entry other value found content
    dsimp only [State.setReplica, State.setShard] at found
    by_cases here : p = q
    · subst here
      rw [set_self] at found
      dsimp only at found
      rw [getElem?_record] at found
      split at found
      · cases found
        cases content
        exact ⟨new, topic⟩
      · obtain ⟨member, same⟩ := backed.log p index entry other value found content
        exact ⟨grown member, same⟩
    · rw [set_ne _ _ here] at found
      obtain ⟨member, same⟩ := backed.log p index entry other value found content
      exact ⟨grown member, same⟩
  · intro r other value found
    obtain ⟨landed, same, _⟩ := replicas r
    dsimp only [State.setReplica, State.setShard] at found
    rw [same] at found
    obtain ⟨member, same⟩ := backed.map r other value found
    exact ⟨grown member, same⟩
  · intro r p call record other stage held running
    obtain ⟨landed, same, arrived⟩ := replicas r
    dsimp only [State.setReplica, State.setShard] at held running ⊢
    rw [same] at held running ⊢
    have old := backed.written r p call record other stage held running
    have sane := sound.sane r p
    have job : (state.replicas r).job p = stage.job? other := job_held held running
    -- A transaction that is still being written cannot be current: its replica would be sure.
    have writing : stage.job? other = some ⟨other, .writing⟩ → p = q → ∀ epoch,
        (state.replicas r).slot p = some ⟨epoch, .busy⟩ →
          epoch ≠ (state.shards p).claims.epoch := by
      rintro writes rfl epoch busy current
      exact sound.not_inflight (job.trans writes) busy current _ sent
    cases stage with
    | sendingClaim | ending =>
      intro epoch busy current
      by_cases here : p = q
      · subst here
        rw [set_self] at current
        exact absurd current (writing rfl rfl epoch busy)
      · rw [set_ne _ _ here] at current ⊢
        exact old epoch busy current
    | committing value =>
      intro isLanded
      obtain before | ⟨rfl, rfl⟩ := arrived p isLanded
      · exact grown (old before)
      · obtain ⟨rfl, rfl⟩ := (sane.inflight key claim sent).2.2.2 other value job
        exact new
    | _ => trivial
  · intro p other asked value found
    dsimp only [State.setReplica, State.setShard] at found ⊢
    by_cases here : p = q
    · subst here
      rw [set_self] at found
      cases found
    · rw [set_ne _ _ here] at found ⊢
      exact backed.inflight p other asked value found

theorem of_event (sound : Sound setup state) (event : Event setup state action after)
    (suits : action.Fits fits) : Backed fits after := by
  cases event with
  | keyless idle keyless =>
    refine backed.outside ((sound.guarded _).locks.not_held ?_) trivial
    intro record key stage running
    cases idle.symm.trans running
  | start idle keyed =>
    refine backed.outside ((sound.guarded _).locks.not_held ?_) ⟨keyed, ?_, by rintro claim ⟨⟩⟩
    · intro record key stage running
      cases idle.symm.trans running
    · exact suits _ keyed
  | call mine here event => exact backed.of_callEvent sound here event
  | loop event => exact backed.of_loopEvent sound event
  | broker event =>
    cases event with
    | land sent => exact backed.land sound sent
    | expire | stray => exact backed.fence sound _ _
    | discard last =>
      refine backed.setShard ?_ (backed.inflight _) ?_
      · intro index entry found
        obtain ⟨before, present, content, _⟩ := getElem?_of_discard found
        exact ⟨before, present, content.symm⟩
      · exact fun r => (backed.written r _).of_shard rfl rfl

end Backed

end

/-! ## Every run -/

theorem backed_of_run {setup : Setup} {actions : List Action} {state : State}
    (suits : Run.Along (State.step setup) (fun _ action => action.Fits fits) State.initial actions)
    (run : Run.exec (State.step setup) State.initial actions = some state) :
    Backed fits state := by
  suffices both : Sound setup state ∧ Backed fits state from both.2
  refine Run.exec_preserves (fun state => Sound setup state ∧ Backed fits state) ?_
    ⟨sound_initial, backed_initial fits⟩ suits run
  intro before action next invariant allowed taken
  exact ⟨invariant.1.step taken,
    invariant.2.of_event invariant.1 (event_of_step taken) allowed⟩

def Action.toTopic (topicOf : String → String) : Action → Bool
  | .start _ _ record => record.idempotencyKey.all fun key => record.topic == topicOf key
  | _ => true

theorem fits_of_toTopic {topicOf : String → String} {action : Action}
    (toTopic : action.toTopic topicOf = true) :
    action.Fits fun key topic => topic = topicOf key := by
  cases action with
  | start r call record =>
    intro key keyed
    simpa [Action.toTopic, keyed] using toTopic
  | _ => trivial

/-- If the keyed records of a run go, key by key, to one topic, then a deduplicated outcome is the
place of a committed record of the same key and topic. -/
theorem deduplicated_record_is_related (topicOf : String → String) (setup : Setup)
    (actions : List Action) {state : State}
    (toTopic : Run.Along (State.step setup) (fun _ action => action.toTopic topicOf = true)
      State.initial actions)
    (run : Run.exec (State.step setup) State.initial actions = some state)
    (r call : Nat) {record : GatewayRecord} {outcome : RecordOutcome} {key : String}
    (answered : (state.replicas r).calls call = .done record (.ok outcome))
    (deduplicated : outcome.deduplicated = true) (keyed : record.idempotencyKey = some key) :
    ⟨key, record.topic, outcome.partition, outcome.offset⟩ ∈ state.records := by
  have suits := Run.along_of_invariant (fun _ => True) (fun _ _ _ _ _ _ => trivial)
    (fun _ _ _ toTopic => fits_of_toTopic toTopic) trivial toTopic
  have backed := (backed_of_run _ suits run).calls r call
  rw [answered] at backed
  obtain ⟨topic, claimed, wanted, member⟩ := backed deduplicated key keyed
  rw [wanted, ← claimed]
  exact member

/-! ## Two runs -/

def oneShard : Setup where
  partitionOf := fun _ => 0
  warmupEmptyPolls := 1

def orderRecord (topic : String) : GatewayRecord where
  topic := topic
  key := none
  value := []
  bodyStructured := none
  headers := []
  partition := none
  timestampMs := none
  idempotencyKey := some "order-7"

/-- The replica takes the partition over and becomes warm. -/
def warmUp (r : Nat) : List Action :=
  [.assign r [0], .prepare r true, .measure r, .install r, .purge r, .deliver r, .settle r]

/-- A call that writes its record at `offset`. -/
def produceCall (r call : Nat) (topic : String) (offset : Int64) : List Action :=
  [.start r call (orderRecord topic), .check r call, .check r call, .check r call,
    .acquire r call, .check r call, .check r call, .check r call, .check r call,
    .began r call none, .sentData r call (.ok (0, offset)), .sentClaim r call none,
    .endTxn r call, .land 0, .committed r call]

/-- A call that finds the key in the claim map. -/
def repeatCall (r call : Nat) (topic : String) : List Action :=
  [.start r call (orderRecord topic), .check r call, .check r call, .check r call]

theorem repeated_order_is_related :
    ∃ state, Run.exec (State.step oneShard) State.initial
        (warmUp 0 ++ produceCall 0 0 "orders" 7 ++ repeatCall 0 1 "orders") = some state ∧
      (⟨"order-7", "orders", 0, 7⟩ : DataRecord) ∈ state.records :=
  ⟨_, rfl, deduplicated_record_is_related (fun _ => "orders") oneShard
    (warmUp 0 ++ produceCall 0 0 "orders" 7 ++ repeatCall 0 1 "orders") (by decide) rfl 0 1 rfl rfl
    rfl⟩

theorem order_of_other_topic_is_deduplicated :
    ∃ state, Run.exec (State.step oneShard) State.initial
        (warmUp 0 ++ produceCall 0 0 "orders" 7 ++ repeatCall 0 1 "refunds") = some state ∧
      (state.replicas 0).calls 1 = .done (orderRecord "refunds") (.ok ⟨0, 7, true⟩) ∧
        (⟨"order-7", "refunds", 0, 7⟩ : DataRecord) ∉ state.records :=
  ⟨_, rfl, rfl, by decide⟩

end KrabkaGateway.Dedup
