import KrabkaGateway.Dedup.Claims
import KrabkaGateway.Lib.FencedCache
import KrabkaGateway.Lib.Run

/-!
# Replicas, their ownership loops and the claim topic

The dedup engines and stores of any number of replicas (`dedup/mod.rs`,
`dedup/store.rs`) over the partitions of the claim topic. A call of `dedup_produce`
runs from one shared access or suspension point to the next; the ownership loop runs
its callbacks inside a poll. A partition has one transactional id: opening a producer
fences the older ones and settles what they left open. A commit that was sent lands, or
not, before or after its caller learns of it.

`status`, `unsure` and `landed` of a replica, `writer` and `data` of a partition and
`records` are history.
-/

namespace KrabkaGateway.Dedup

open Lib Lib.ClaimLog Lib.FencedLog

structure Setup where
  /-- The dedup partition of a key. -/
  partitionOf : String → Nat
  warmupEmptyPolls : Nat

structure DataRecord where
  idempotencyKey : String
  topic : String
  partition : Int32
  offset : Int64
  deriving DecidableEq, Repr

/-- A partition of the claim topic, with the data record of the open transaction. -/
structure Shard where
  claims : Shared Nat String ClaimValue
  draft : Option DataRecord

/-! ## Calls -/

/-- Where a call of `dedup_produce` stands. The stages from `recheckOwner` on are under the lock of
the partition's slot. -/
inductive Stage where
  | checkOwner
  | checkWarm
  | lookup
  | waiting
  | recheckOwner
  | recheckWarm
  | recheck
  | opening
  | beginning
  | sendingData
  | sendingClaim (claim : ClaimValue)
  /-- The claim is sent, the commit request is not. -/
  | ending (claim : ClaimValue)
  | committing (claim : ClaimValue)
  | aborting (error : GatewayError)
  deriving DecidableEq, Repr

def Stage.suspended : Stage → Bool
  | .waiting | .opening | .beginning | .sendingData | .sendingClaim _ | .ending _ | .committing _
  | .aborting _ => true
  | _ => false

def Stage.locked : Stage → Bool
  | .checkOwner | .checkWarm | .lookup | .waiting => false
  | _ => true

inductive Call where
  | idle
  | running (record : GatewayRecord) (key : String) (stage : Stage)
  | done (record : GatewayRecord) (result : Except GatewayError RecordOutcome)
  | cancelled

def hit (claim : ClaimValue) : RecordOutcome where
  partition := claim.partition
  offset := claim.offset
  deduplicated := true

/-! ## Replicas -/

/-- The ownership loop: in a poll, in one of its two callbacks, at the records of a batch, or on
its way out. -/
inductive LoopPhase where
  | polling
  | purging (gone revoked : List Nat)
  | releasing (revoked : List Nat)
  | preparing (todo all : List Nat)
  | installing
  | processing
  | stopping
  | clearing
  | exited
  deriving DecidableEq, Repr

structure Replica where
  owned : List Nat
  warm : Bool
  restartRequired : Bool
  emptyPolls : Nat
  map : String → Option ClaimValue
  slot : Nat → Option Handle
  lock : Nat → Option Nat
  calls : Nat → Call
  /-- The consumer: its assignment, its positions, the records of a poll still to be handled. -/
  assigned : List Nat
  position : Nat → Nat
  batch : List (Nat × Nat)
  /-- The replay targets. -/
  targets : List (Nat × Nat)
  phase : LoopPhase
  status : Nat → Status
  unsure : Nat → Option String
  landed : Nat → Bool

namespace Replica

def start : Replica where
  owned := []
  warm := false
  restartRequired := false
  emptyPolls := 0
  map := fun _ => none
  slot := fun _ => none
  lock := fun _ => none
  calls := fun _ => .idle
  assigned := []
  position := fun _ => 0
  batch := []
  targets := []
  phase := .polling
  status := fun _ => .absent
  unsure := fun _ => none
  landed := fun _ => false

def owns (replica : Replica) (partition : Nat) : Bool :=
  replica.owned.contains partition

def isWarm (replica : Replica) : Bool :=
  replica.warm && !replica.restartRequired

def requireRestart (replica : Replica) : Replica :=
  { replica with restartRequired := true, warm := false }

def leave (replica : Replica) (partitions : List Nat) : Replica :=
  { replica with
    status := fun partition =>
      if partitions.contains partition then .absent else replica.status partition }

def replayComplete (replica : Replica) : Bool :=
  !replica.targets.isEmpty &&
    replica.targets.all fun (partition, target) => target ≤ replica.position partition

/-- A call ends without having held the lock. -/
def answer (replica : Replica) (call : Nat) (record : GatewayRecord)
    (result : Except GatewayError RecordOutcome) : Replica :=
  { replica with calls := set replica.calls call (.done record result) }

def finish (replica : Replica) (call partition : Nat) (record : GatewayRecord)
    (result : Except GatewayError RecordOutcome) : Replica :=
  { replica with
    calls := set replica.calls call (.done record result)
    lock := set replica.lock partition none }

/-- `dedup_produce` drops the producer after an error. -/
def fail (replica : Replica) (call partition : Nat) (record : GatewayRecord)
    (error : GatewayError) (restart : Bool) : Replica :=
  let failed := if restart then replica.requireRestart else replica
  { failed.finish call partition record (.error error) with
    slot := set replica.slot partition none }

def advance (replica : Replica) (call : Nat) (record : GatewayRecord) (key : String)
    (stage : Stage) : Replica :=
  { replica with calls := set replica.calls call (.running record key stage) }

end Replica

/-! ## The system -/

structure State where
  shards : Nat → Shard
  replicas : Nat → Replica
  /-- The data records of committed transactions. -/
  records : List DataRecord

inductive Action where
  | start (replica call : Nat) (record : GatewayRecord)
  /-- The next check of a call that needs no answer from outside. -/
  | check (replica call : Nat)
  | acquire (replica call : Nat)
  | opened (replica call : Nat) (failure : Option ProducerError)
  | began (replica call : Nat) (failure : Option ProducerError)
  | sentData (replica call : Nat) (answer : Except ProducerError (Int32 × Int64))
  | sentClaim (replica call : Nat) (failure : Option GatewayError)
  | endTxn (replica call : Nat)
  | committed (replica call : Nat)
  | commitFailed (replica call : Nat) (definite : Bool) (error : ProducerError)
  | aborted (replica call : Nat) (confirmed : Bool)
  | cancel (replica call : Nat)
  | revoke (replica : Nat) (partitions : List Nat)
  | purge (replica : Nat)
  | release (replica : Nat)
  | assign (replica : Nat) (partitions : List Nat)
  | prepare (replica : Nat) (success : Bool)
  | measure (replica : Nat)
  | install (replica : Nat)
  | fetch (replica partition : Nat)
  | deliver (replica : Nat)
  | process (replica : Nat)
  | settle (replica : Nat)
  | stop (replica : Nat)
  | quit (replica : Nat)
  | clear (replica : Nat)
  /-- The commit that is in flight takes effect. -/
  | land (partition : Nat)
  /-- The open transaction times out, and its producer is fenced. -/
  | expire (partition : Nat)
  /-- A late request to open a producer, from a replica that no longer waits for it. -/
  | stray (replica partition : Nat)
  /-- Retention and compaction discard a record of the claim topic. -/
  | discard (partition index : Nat)

namespace State

/-- No replica has started yet, and the partitions of the claim topic have these records. -/
def startingOn (logs : Nat → List (Entry String ClaimValue)) : State where
  shards := fun partition =>
    { claims := { epoch := 0, writer := none, inflight := none, log := logs partition, data := [] }
      draft := none }
  replicas := fun _ => Replica.start
  records := []

def initial : State :=
  startingOn fun _ => []

def setReplica (state : State) (replica : Nat) (next : Replica) : State :=
  { state with replicas := set state.replicas replica next }

def setShard (state : State) (partition : Nat) (next : Shard) : State :=
  { state with shards := set state.shards partition next }

/-- Open a producer: older ones are fenced and their open transaction is settled. -/
def fence (state : State) (partition : Nat) (writer : Option Nat) : State :=
  state.setShard partition
    { claims := (state.shards partition).claims.fence writer, draft := none }

def epoch (state : State) (partition : Nat) : Nat :=
  (state.shards partition).claims.epoch

variable (setup : Setup)

def holds (replica : Replica) (call : Nat) (key : String) : Prop :=
  replica.lock (setup.partitionOf key) = some call

instance (replica : Replica) (call : Nat) (key : String) :
    Decidable (holds setup replica call key) :=
  inferInstanceAs (Decidable (_ = _))

/-- The checks of `dedup_produce`, before the lock and under it. -/
def check (replica : Replica) (call : Nat) (record : GatewayRecord) (key : String) :
    Stage → Option Replica
  | .checkOwner =>
    some (if replica.owns (setup.partitionOf key) then replica.advance call record key .checkWarm
      else replica.answer call record (.error .unavailable))
  | .checkWarm =>
    some (if replica.isWarm then replica.advance call record key .lookup
      else replica.answer call record (.error .unavailable))
  | .lookup =>
    some (match replica.map key with
      | some claim => replica.answer call record (.ok (hit claim))
      | none => replica.advance call record key .waiting)
  | .recheckOwner =>
    some (if replica.owns (setup.partitionOf key) then replica.advance call record key .recheckWarm
      else replica.finish call (setup.partitionOf key) record (.error .unavailable))
  | .recheckWarm =>
    some (if replica.isWarm then replica.advance call record key .recheck
      else replica.finish call (setup.partitionOf key) record (.error .unavailable))
  | .recheck =>
    some (match replica.map key with
      | some claim => replica.finish call (setup.partitionOf key) record (.ok (hit claim))
      | none => replica.advance call record key .opening)
  | .opening =>
    -- The slot already has a producer.
    if (replica.slot (setup.partitionOf key)).isSome then
      some (replica.advance call record key .beginning)
    else none
  | _ => none

def callStep (state : State) (r call : Nat) (record : GatewayRecord) (key : String)
    (stage : Stage) : Action → Option State :=
  let replica := state.replicas r
  let partition := setup.partitionOf key
  let advance := fun (replica : Replica) stage =>
    state.setReplica r (replica.advance call record key stage)
  let fail := fun error restart =>
    state.setReplica r (replica.fail call partition record error restart)
  fun action =>
  match action, stage, replica.slot partition with
  | .check _ _, stage, _ => (check setup replica call record key stage).map (state.setReplica r)
  | .acquire _ _, .waiting, _ =>
    if replica.lock partition = none then
      some (advance { replica with lock := set replica.lock partition (some call) } .recheckOwner)
    else none
  | .opened _ _ none, .opening, none =>
    some ((state.fence partition (some r)).setReplica r
      ({ replica with
        slot := set replica.slot partition (some ⟨state.epoch partition + 1, .clean⟩) }.advance
          call record key .beginning))
  | .opened _ _ (some error), .opening, none => some (fail (.producer error) false)
  | .began _ _ none, .beginning, some ⟨epoch, .clean⟩ =>
    some (advance { replica with slot := set replica.slot partition (some ⟨epoch, .busy⟩) }
      .sendingData)
  | .began _ _ (some error), .beginning, some handle =>
    -- A producer whose last transaction has no known outcome asks for recovery.
    if handle.state = .clean ∨ error = .recoveryRequired then
      some (fail (.producer error) (error = .recoveryRequired))
    else none
  | .sentData _ _ (.ok (place, offset)), .sendingData, some ⟨epoch, .busy⟩ =>
    if epoch = state.epoch partition then
      some ((state.setShard partition
        { state.shards partition with draft := some ⟨key, record.topic, place, offset⟩ }).setReplica
          r (replica.advance call record key (.sendingClaim ⟨record.topic, place, offset⟩)))
    else none
  | .sentData _ _ (.error error), .sendingData, _ =>
    some (advance replica (.aborting (.producer error)))
  | .sentClaim _ _ none, .sendingClaim claim, some ⟨epoch, .busy⟩ =>
    if epoch = state.epoch partition then some (advance replica (.ending claim)) else none
  | .sentClaim _ _ (some error), .sendingClaim _, _ => some (advance replica (.aborting error))
  | .endTxn _ _, .ending claim, some ⟨epoch, .busy⟩ =>
    let shard := state.shards partition
    some ((state.setShard partition
      { shard with
        claims :=
          if epoch = shard.claims.epoch then
            { shard.claims with inflight := some (r, key, claim) }
          else shard.claims }).setReplica r
      ({ replica with
        slot := set replica.slot partition (some ⟨epoch, .unresolved⟩)
        unsure := set replica.unsure partition (some key)
        landed := set replica.landed partition false }.advance call record key
          (.committing claim)))
  | .committed _ _, .committing claim, some ⟨epoch, .unresolved⟩ =>
    if replica.landed partition then
      some (state.setReplica r ({ replica with
        slot := set replica.slot partition (some ⟨epoch, .clean⟩)
        map := set replica.map key (some claim)
        unsure := set replica.unsure partition none }.finish call partition record
          (.ok ⟨claim.partition, claim.offset, false⟩)))
    else none
  | .commitFailed _ _ true error, .committing _, some ⟨epoch, .unresolved⟩ =>
    -- The commit is known not to have happened; the transaction is still open.
    let shard := state.shards partition
    if replica.landed partition then none
    else
      some ((state.setShard partition
        { shard with
          claims :=
            if shard.claims.inflight.any (fun sent => sent.1 = r) then
              { shard.claims with inflight := none }
            else shard.claims }).setReplica r
        ({ replica with
          slot := set replica.slot partition (some ⟨epoch, .busy⟩)
          unsure := set replica.unsure partition none }.advance call record key
            (.aborting (.producer error))))
  | .commitFailed _ _ false error, .committing _, _ =>
    some (advance replica (.aborting (.producer error)))
  | .commitFailed _ _ _ error, .ending _, _ => some (advance replica (.aborting (.producer error)))
  | .aborted _ _ true, .aborting error, some ⟨epoch, .busy⟩ =>
    let shard := state.shards partition
    some ((state.setShard partition
      { shard with
        draft := if epoch = state.epoch partition then none else shard.draft }).setReplica
        r (replica.fail call partition record error false))
  | .aborted _ _ false, .aborting error, _ => some (fail error true)
  | .cancel _ _, stage, _ =>
    if stage.suspended then
      some (state.setReplica r { replica with
        calls := set replica.calls call .cancelled
        lock := if stage.locked then set replica.lock partition none else replica.lock })
    else none
  | _, _, _ => none

def loopStep (state : State) (r : Nat) : Action → Option State :=
  let replica := state.replicas r
  fun action =>
  match action, replica.phase with
  | .revoke _ partitions, .polling =>
    if replica.batch = [] then
      some (state.setReplica r { replica.leave partitions with
        warm := false
        emptyPolls := 0
        targets := []
        owned := replica.owned.filter fun partition => !partitions.contains partition
        assigned := replica.assigned.filter fun partition => !partitions.contains partition
        phase := .purging (replica.owned.filter partitions.contains) partitions })
    else none
  | .purge _, .purging gone revoked =>
    some (state.setReplica r { replica with
      map := fun key => if gone.contains (setup.partitionOf key) then none else replica.map key
      phase := if revoked.isEmpty then .polling else .releasing revoked })
  | .release _, .releasing (partition :: rest) =>
    if replica.lock partition = none then
      some (state.setReplica r { replica with
        slot := set replica.slot partition none
        phase := if rest.isEmpty then .polling else .releasing rest })
    else none
  | .assign _ partitions, .polling =>
    if replica.batch = [] then
      some (state.setReplica r { replica with
        warm := false
        assigned := replica.assigned ++
          partitions.filter fun partition => !replica.assigned.contains partition
        phase := .preparing partitions partitions })
    else none
  | .prepare _ true, .preparing (partition :: todo) all =>
    if replica.lock partition = none then
      some ((state.fence partition (some r)).setReplica r { replica with
        slot := set replica.slot partition (some ⟨state.epoch partition + 1, .clean⟩)
        status := set replica.status partition .prepared
        unsure := set replica.unsure partition none
        phase := .preparing todo all })
    else none
  | .prepare _ false, .preparing (partition :: _) _ =>
    if replica.lock partition = none then
      some (state.setReplica r { replica.leave [partition] with
        slot := set replica.slot partition none
        phase := .stopping })
    else none
  | .measure _, .preparing [] all =>
    some (state.setReplica r { replica with
      position := fun partition =>
        if all.contains partition then 0 else replica.position partition
      targets := replica.assigned.map fun partition =>
        (partition, (state.shards partition).claims.log.length)
      status := fun partition =>
        if all.contains partition then .replaying else replica.status partition
      phase := .installing })
  | .install _, .installing =>
    let gone := replica.owned.filter fun partition => !replica.assigned.contains partition
    some (state.setReplica r { replica.leave gone with
      warm := false
      emptyPolls := 0
      owned := replica.assigned
      phase := .purging gone [] })
  | .fetch _ partition, .polling =>
    if replica.assigned.contains partition then
      match (state.shards partition).claims.log[replica.position partition]? with
      | none => none
      | some entry =>
        some (state.setReplica r { replica with
          position := set replica.position partition (replica.position partition + 1)
          batch :=
            if entry.gone then replica.batch
            else replica.batch ++ [(partition, replica.position partition)] })
    else none
  | .deliver _, .polling =>
    if replica.restartRequired then some (state.setReplica r { replica with phase := .stopping })
    else
      some (state.setReplica r { replica with
        emptyPolls := if replica.batch.isEmpty then replica.emptyPolls + 1 else 0
        phase := .processing })
  | .process _, .processing =>
    match replica.batch with
    | [] => none
    | (partition, index) :: rest =>
      match (state.shards partition).claims.log[index]? with
      | none => none
      | some entry =>
        some (state.setReplica r { replica with
          batch := rest
          map :=
            if replica.owns partition then entry.content.apply replica.map
            else replica.map })
  | .settle _, .processing =>
    if replica.batch = [] then
      if !replica.isWarm ∧ setup.warmupEmptyPolls ≤ replica.emptyPolls ∧
          replica.replayComplete then
        some (state.setReplica r { replica with
          warm := true
          status := fun partition =>
            if replica.status partition = .replaying ∧
                (replica.targets.lookup partition).isSome then .ready
            else replica.status partition
          phase := .polling })
      else some (state.setReplica r { replica with phase := .polling })
    else none
  | .stop _, .polling => some (state.setReplica r { replica with phase := .stopping })
  | .quit _, .stopping =>
    some (state.setReplica r { replica with
      warm := false
      owned := []
      status := fun _ => .absent
      phase := .clearing })
  | .clear _, .clearing =>
    some (state.setReplica r { replica with map := fun _ => none, phase := .exited })
  | _, _ => none

/-- What happens at the broker by itself. -/
def brokerStep (state : State) : Action → Option State
  | .land partition =>
    let shard := state.shards partition
    match shard.claims.inflight with
    | none => none
    | some (node, key, claim) =>
      let replica := state.replicas node
      some { (state.setShard partition
          { claims :=
              { shard.claims with
                inflight := none
                log := record shard.claims.log key claim
                data := shard.claims.data ++ [(key, shard.claims.log.length)] }
            draft := none }).setReplica node
              { replica with landed := set replica.landed partition true } with
        records := state.records ++ shard.draft.toList }
  | .expire partition =>
    some (state.fence partition (state.shards partition).claims.writer)
  | .stray replica partition =>
    some (state.fence partition
      (if (state.shards partition).claims.writer = some replica then some replica else none))
  | .discard partition index =>
    let shard := state.shards partition
    if canDiscard shard.claims.log index then
      some (state.setShard partition
        { shard with claims := { shard.claims with log := discard shard.claims.log index } })
    else none
  | _ => none

def startCall (state : State) (r call : Nat) (record : GatewayRecord) : Option State :=
  let replica := state.replicas r
  match replica.calls call with
  | .idle =>
    some (state.setReplica r (match record.idempotencyKey with
      | none =>
        replica.answer call record
          (.error (.other "dedup_produce called without idempotency_key"))
      | some key => replica.advance call record key .checkOwner))
  | _ => none

def atCall (state : State) (r call : Nat) (action : Action) : Option State :=
  match (state.replicas r).calls call with
  | .running record key stage =>
    if stage.locked ∧ ¬ holds setup (state.replicas r) call key then none
    else callStep setup state r call record key stage action
  | _ => none

def step (state : State) (action : Action) : Option State :=
  match action with
  | .start r call record => state.startCall r call record
  | .check r call | .acquire r call | .opened r call _ | .began r call _ | .sentData r call _
  | .sentClaim r call _ | .endTxn r call | .committed r call | .commitFailed r call _ _
  | .aborted r call _ | .cancel r call => state.atCall setup r call action
  | .revoke r _ | .purge r | .release r | .assign r _ | .prepare r _ | .measure r | .install r
  | .fetch r _ | .deliver r | .process r | .settle r | .stop r | .quit r | .clear r =>
    state.loopStep setup r action
  | .land _ | .expire _ | .stray _ _ | .discard _ _ => state.brokerStep action

end State

end KrabkaGateway.Dedup
