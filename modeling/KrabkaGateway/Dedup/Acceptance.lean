import KrabkaGateway.Dedup.Sound

/-!
# How a new record is accepted

A warm owner that does not have the key of a call in its map, and whose producer can be
used, carries the call through to a committed record when nothing else happens. Each
lemma takes the call from one stage to the next.
-/

namespace KrabkaGateway.Dedup

open Lib Lib.ClaimLog Lib.FencedLog

/-- A call is on its way at a warm owner that does not have its key. Its producer, if there is one,
is the current one. -/
structure Underway (setup : Setup) (r call : Nat) (record : GatewayRecord) (key : String)
    (stage : Stage) (handle : Option Handle) (state : State) : Prop where
  running : (state.replicas r).calls call = .running record key stage
  owns : (state.replicas r).owns (setup.partitionOf key) = true
  warm : (state.replicas r).isWarm = true
  absent : (state.replicas r).map key = none
  lock : (state.replicas r).lock (setup.partitionOf key) = if stage.locked then some call else none
  slot : (state.replicas r).slot (setup.partitionOf key) = handle
  current : ∀ own, handle = some own → own.epoch = state.epoch (setup.partitionOf key)

def lookUpCall (r call : Nat) (record : GatewayRecord) : List Action :=
  [.start r call record, .check r call, .check r call, .check r call, .acquire r call,
    .check r call, .check r call, .check r call]

/-- A call that writes its record, with the answers of a broker that does as it is asked. -/
def writeCall (r call p : Nat) (slot : Option Handle) (place : Int32) (offset : Int64) :
    List Action :=
  [if slot = none then .opened r call none else .check r call, .began r call none,
    .sentData r call (.ok (place, offset)), .sentClaim r call none, .endTxn r call, .land p,
    .committed r call]

def newRecordCall (r call p : Nat) (slot : Option Handle) (record : GatewayRecord) (place : Int32)
    (offset : Int64) : List Action :=
  lookUpCall r call record ++ writeCall r call p slot place offset

namespace Underway

variable {setup : Setup} {r call : Nat} {record : GatewayRecord} {key : String} {stage next : Stage}
  {handle : Option Handle} {state : State}

theorem takes (underway : Underway setup r call record key stage handle state) (action : Action)
    (own : state.step setup action = state.atCall setup r call action) :
    state.step setup action = State.callStep setup state r call record key stage action := by
  have held : ¬ (stage.locked = true ∧ ¬ State.holds setup (state.replicas r) call key) := by
    rintro ⟨locked, free⟩
    exact free (by rw [State.holds, underway.lock, if_pos locked])
  simp only [own, State.atCall, underway.running]
  rw [if_neg held]

/-- The call goes on, with the lock and the producer it then has. -/
theorem advance (underway : Underway setup r call record key stage handle state) (next : Stage)
    (lock : Nat → Option Nat) (slot : Nat → Option Handle) (shards : Nat → Shard)
    (held : lock (setup.partitionOf key) = if next.locked then some call else none)
    {handle' : Option Handle}
    (own : slot (setup.partitionOf key) = handle')
    (current : ∀ own, handle' = some own →
      own.epoch = (shards (setup.partitionOf key)).claims.epoch) :
    Underway setup r call record key next handle'
      ({ state with shards := shards }.setReplica r
        ({ state.replicas r with lock := lock, slot := slot }.advance call record key next)) where
  running := by
    rw [replicas_setReplica]
    exact set_self _ _ _
  owns := replicas_setReplica _ _ _ ▸ underway.owns
  warm := replicas_setReplica _ _ _ ▸ underway.warm
  absent := replicas_setReplica _ _ _ ▸ underway.absent
  lock := replicas_setReplica _ _ _ ▸ held
  slot := replicas_setReplica _ _ _ ▸ own
  current := current

theorem check (underway : Underway setup r call record key stage handle state) (next : Stage)
    (same : next.locked = stage.locked)
    (passes : State.check setup (state.replicas r) call record key stage =
      some ((state.replicas r).advance call record key next)) :
    ∃ after, state.step setup (.check r call) = some after ∧
      Underway setup r call record key next handle after := by
  refine ⟨state.setReplica r ((state.replicas r).advance call record key next), ?_,
    underway.advance next (state.replicas r).lock (state.replicas r).slot state.shards
      (by rw [underway.lock, same]) underway.slot underway.current⟩
  rw [underway.takes (.check r call) rfl]
  simp only [State.callStep, passes, Option.map_some]

theorem acquire (underway : Underway setup r call record key .waiting handle state) :
    ∃ after, state.step setup (.acquire r call) = some after ∧
      Underway setup r call record key .recheckOwner handle after := by
  have free : (state.replicas r).lock (setup.partitionOf key) = none := underway.lock
  refine ⟨_, ?_, underway.advance .recheckOwner
    (set (state.replicas r).lock (setup.partitionOf key) (some call)) (state.replicas r).slot
    state.shards (set_self _ _ _) underway.slot underway.current⟩
  rw [underway.takes (.acquire r call) rfl]
  simp only [State.callStep, free, if_true]

theorem look (underway : Underway setup r call record key .checkOwner handle state) :
    ∃ after, Run.exec (State.step setup) state [.check r call, .check r call, .check r call,
        .acquire r call, .check r call, .check r call, .check r call] = some after ∧
      Underway setup r call record key .opening handle after := by
  obtain ⟨s₁, step₁, at₁⟩ := underway.check .checkWarm rfl
    (by simp only [State.check, underway.owns, if_true])
  obtain ⟨s₂, step₂, at₂⟩ := at₁.check .lookup rfl (by simp only [State.check, at₁.warm, if_true])
  obtain ⟨s₃, step₃, at₃⟩ := at₂.check .waiting rfl (by simp only [State.check, at₂.absent])
  obtain ⟨s₄, step₄, at₄⟩ := at₃.acquire
  obtain ⟨s₅, step₅, at₅⟩ := at₄.check .recheckWarm rfl
    (by simp only [State.check, at₄.owns, if_true])
  obtain ⟨s₆, step₆, at₆⟩ := at₅.check .recheck rfl (by simp only [State.check, at₅.warm, if_true])
  obtain ⟨s₇, step₇, at₇⟩ := at₆.check .opening rfl (by simp only [State.check, at₆.absent])
  refine ⟨s₇, ?_, at₇⟩
  simp only [Run.exec, step₁, step₂, step₃, step₄, step₅, step₆, step₇, Option.bind_some]

theorem obtainProducer (underway : Underway setup r call record key .opening handle state)
    (usable : ∀ own, handle = some own → own.state = .clean) :
    ∃ after epoch, state.step setup
        (if handle = none then .opened r call none else .check r call) = some after ∧
      Underway setup r call record key .beginning (some ⟨epoch, .clean⟩) after := by
  cases handle with
  | none =>
    have slot := underway.slot
    refine ⟨_, _, ?_, underway.advance .beginning (state.replicas r).lock
      (set (state.replicas r).slot (setup.partitionOf key)
        (some ⟨state.epoch (setup.partitionOf key) + 1, .clean⟩))
      (state.fence (setup.partitionOf key) (some r)).shards underway.lock (set_self _ _ _) ?_⟩
    · rw [if_pos rfl]
      rw [underway.takes (.opened r call none) rfl]
      simp only [State.callStep, slot]
      rfl
    · rintro own ⟨rfl⟩
      rw [shards_fence, set_self]
      rfl
  | some own =>
    obtain ⟨epoch, condition⟩ := own
    obtain rfl : condition = .clean := usable _ rfl
    obtain ⟨after, taken, next⟩ := underway.check .beginning rfl
      (by simp only [State.check, underway.slot, Option.isSome_some, if_true])
    exact ⟨after, epoch, by rw [if_neg (Option.some_ne_none _)]; exact taken, next⟩

variable {epoch : Nat}

theorem begin
    (underway : Underway setup r call record key .beginning (some ⟨epoch, .clean⟩) state) :
    ∃ after, state.step setup (.began r call none) = some after ∧
      Underway setup r call record key .sendingData (some ⟨epoch, .busy⟩) after := by
  refine ⟨_, ?_, underway.advance .sendingData (state.replicas r).lock
    (set (state.replicas r).slot (setup.partitionOf key) (some ⟨epoch, .busy⟩)) state.shards
    underway.lock (set_self _ _ _) ?_⟩
  · rw [underway.takes (.began r call none) rfl]
    simp only [State.callStep, underway.slot]
  · rintro own ⟨rfl⟩
    exact underway.current ⟨epoch, .clean⟩ rfl

theorem sendData (place : Int32) (offset : Int64)
    (underway : Underway setup r call record key .sendingData (some ⟨epoch, .busy⟩) state) :
    ∃ after, state.step setup (.sentData r call (.ok (place, offset))) = some after ∧
      Underway setup r call record key (.sendingClaim ⟨record.topic, place, offset⟩)
        (some ⟨epoch, .busy⟩) after := by
  have current := underway.current _ rfl
  refine ⟨_, ?_, underway.advance (.sendingClaim ⟨record.topic, place, offset⟩)
    (state.replicas r).lock (state.replicas r).slot
    (state.setShard (setup.partitionOf key) { state.shards (setup.partitionOf key) with
      draft := some ⟨key, record.topic, place, offset⟩ }).shards underway.lock underway.slot ?_⟩
  · rw [underway.takes (.sentData r call (.ok (place, offset))) rfl]
    simp only [State.callStep, underway.slot]
    rw [if_pos current]
    rfl
  · rintro own ⟨rfl⟩
    rw [shards_setShard, set_self]
    exact current

variable {claim : ClaimValue}

theorem sendClaim
    (underway :
      Underway setup r call record key (.sendingClaim claim) (some ⟨epoch, .busy⟩) state) :
    ∃ after, state.step setup (.sentClaim r call none) = some after ∧
      Underway setup r call record key (.ending claim) (some ⟨epoch, .busy⟩) after := by
  refine ⟨_, ?_, underway.advance (.ending claim) (state.replicas r).lock (state.replicas r).slot
    state.shards underway.lock underway.slot underway.current⟩
  rw [underway.takes (.sentClaim r call none) rfl]
  simp only [State.callStep, underway.slot]
  rw [if_pos (underway.current _ rfl)]

/-- The commit is sent, lands and is confirmed. -/
theorem commit
    (underway : Underway setup r call record key (.ending claim) (some ⟨epoch, .busy⟩) state) :
    ∃ after, Run.exec (State.step setup) state
        [.endTxn r call, .land (setup.partitionOf key), .committed r call] = some after ∧
      (after.replicas r).calls call =
        .done record (.ok ⟨claim.partition, claim.offset, false⟩) := by
  have current : epoch = (state.shards (setup.partitionOf key)).claims.epoch :=
    underway.current _ rfl
  let sent := (state.setShard (setup.partitionOf key)
    { state.shards (setup.partitionOf key) with
      claims := { (state.shards (setup.partitionOf key)).claims with
        inflight := some (r, key, claim) } }).setReplica r
      ({ state.replicas r with
        slot := set (state.replicas r).slot (setup.partitionOf key) (some ⟨epoch, .unresolved⟩)
        unsure := set (state.replicas r).unsure (setup.partitionOf key) (some key)
        landed := set (state.replicas r).landed (setup.partitionOf key) false }.advance call record
          key (.committing claim))
  have sends : state.step setup (.endTxn r call) = some sent := by
    rw [underway.takes (.endTxn r call) rfl]
    simp only [State.callStep, underway.slot]
    rw [if_pos current]
  have inflight : (sent.shards (setup.partitionOf key)).claims.inflight = some (r, key, claim) := by
    simp only [sent, shards_setReplica, shards_setShard, set_self]
  obtain ⟨landed, lands, arrived⟩ : ∃ landed, sent.step setup (.land (setup.partitionOf key)) =
      some landed ∧ landed.replicas r = { sent.replicas r with
        landed := set (sent.replicas r).landed (setup.partitionOf key) true } := by
    simp only [State.step, State.brokerStep, inflight]
    exact ⟨_, rfl, set_self _ _ _⟩
  have own : sent.replicas r = _ := replicas_setReplica _ _ _
  have running : (landed.replicas r).calls call = .running record key (.committing claim) := by
    rw [arrived, own]
    exact set_self _ _ _
  have slot : (landed.replicas r).slot (setup.partitionOf key) = some ⟨epoch, .unresolved⟩ := by
    rw [arrived, own]
    exact set_self _ _ _
  have held : (landed.replicas r).lock (setup.partitionOf key) = some call := by
    rw [arrived, own]
    exact underway.lock
  have told : (landed.replicas r).landed (setup.partitionOf key) = true := by
    rw [arrived]
    exact set_self _ _ _
  have confirms : ∃ after, landed.step setup (.committed r call) = some after ∧
      (after.replicas r).calls call =
        .done record (.ok ⟨claim.partition, claim.offset, false⟩) := by
    change ∃ after, landed.atCall setup r call (.committed r call) = some after ∧ _
    simp only [State.atCall, running]
    rw [if_neg (by simp [State.holds, held])]
    simp only [State.callStep, slot, told, if_true]
    refine ⟨_, rfl, ?_⟩
    rw [replicas_setReplica]
    exact set_self _ _ _
  obtain ⟨after, confirmed, answered⟩ := confirms
  refine ⟨after, ?_, answered⟩
  simp only [Run.exec, sends, lands, confirmed, Option.bind_some]

end Underway

theorem new_record_accepted {setup : Setup} {state : State} {r call : Nat} {record : GatewayRecord}
    {key : String} {slot : Option Handle} (idle : (state.replicas r).calls call = .idle)
    (keyed : record.idempotencyKey = some key)
    (owns : (state.replicas r).owns (setup.partitionOf key) = true)
    (warm : (state.replicas r).isWarm = true)
    (free : (state.replicas r).lock (setup.partitionOf key) = none)
    (producer : (state.replicas r).slot (setup.partitionOf key) = slot)
    (usable : ∀ own, slot = some own → own = ⟨state.epoch (setup.partitionOf key), .clean⟩)
    (absent : (state.replicas r).map key = none) (place : Int32) (offset : Int64) :
    ∃ after, Run.exec (State.step setup) state
        (newRecordCall r call (setup.partitionOf key) slot record place offset) = some after ∧
      (after.replicas r).calls call = .done record (.ok ⟨place, offset, false⟩) := by
  have starts : state.step setup (.start r call record) =
      some (state.setReplica r ((state.replicas r).advance call record key .checkOwner)) := by
    simp only [State.step, State.startCall, idle, keyed]
  have begun : Underway setup r call record key .checkOwner slot
      (state.setReplica r ((state.replicas r).advance call record key .checkOwner)) := by
    constructor
    · rw [replicas_setReplica]
      exact set_self _ _ _
    · exact replicas_setReplica _ _ _ ▸ owns
    · exact replicas_setReplica _ _ _ ▸ warm
    · exact replicas_setReplica _ _ _ ▸ absent
    · exact replicas_setReplica _ _ _ ▸ free
    · exact replicas_setReplica _ _ _ ▸ producer
    · intro own found
      rw [usable own found]
      rfl
  obtain ⟨s₁, looks, at₁⟩ := begun.look
  obtain ⟨s₂, epoch, opens, at₂⟩ := at₁.obtainProducer fun own found => by rw [usable own found]
  obtain ⟨s₃, begins, at₃⟩ := at₂.begin
  obtain ⟨s₄, sends, at₄⟩ := at₃.sendData place offset
  obtain ⟨s₅, claims, at₅⟩ := at₄.sendClaim
  obtain ⟨after, commits, answered⟩ := at₅.commit
  refine ⟨after, ?_, answered⟩
  refine Run.exec_append_eq_some.mpr ⟨_, Run.exec_cons_eq_some.mpr ⟨_, starts, looks⟩, ?_⟩
  refine Run.exec_cons_eq_some.mpr ⟨_, opens, ?_⟩
  refine Run.exec_cons_eq_some.mpr ⟨_, begins, ?_⟩
  refine Run.exec_cons_eq_some.mpr ⟨_, sends, ?_⟩
  exact Run.exec_cons_eq_some.mpr ⟨_, claims, commits⟩

end KrabkaGateway.Dedup
