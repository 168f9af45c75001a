import KrabkaGateway.Dedup.System

/-!
# What one step can be

Each step of the system is one of the events below, with the facts it rests on. The
invariants of the following modules go through these cases.
-/

namespace KrabkaGateway.Dedup

open Lib Lib.ClaimLog Lib.FencedLog

variable (setup : Setup)

/-- A call of a replica stands at `stage`, with the lock of its slot if the stage needs it. -/
structure At (state : State) (r call : Nat) (record : GatewayRecord) (key : String)
    (stage : Stage) : Prop where
  running : (state.replicas r).calls call = .running record key stage
  held : stage.locked = true → (state.replicas r).lock (setup.partitionOf key) = some call

section

variable (state : State) (r call : Nat) (record : GatewayRecord) (key : String) (replica : Replica)
  (p : Nat)

/-- A check before the lock that lets the call go on. -/
inductive Passes : Stage → Stage → Prop where
  | owner (owns : replica.owns p = true) : Passes .checkOwner .checkWarm
  | warm (isWarm : replica.isWarm = true) : Passes .checkWarm .lookup
  | lookup (absent : replica.map key = none) : Passes .lookup .waiting

/-- The stages in which a transaction is given up. -/
inductive Abandons : Stage → Prop where
  | data : Abandons .sendingData
  | claim (claim : ClaimValue) : Abandons (.sendingClaim claim)
  | ending (claim : ClaimValue) : Abandons (.ending claim)
  | commit (claim : ClaimValue) : Abandons (.committing claim)

/-- A step of a call of the replica `r`, which is at `replica`; `p` is the partition of the key. -/
inductive CallCase : Stage → Action → State → Prop where
  | refuseEarly {stage} (early : stage = .checkOwner ∨ stage = .checkWarm) :
      CallCase stage (.check r call)
        (state.setReplica r (replica.answer call record (.error .unavailable)))
  | pass {stage next} (passes : Passes key replica p stage next) :
      CallCase stage (.check r call) (state.setReplica r (replica.advance call record key next))
  | hitEarly {claim} (found : replica.map key = some claim) :
      CallCase .lookup (.check r call)
        (state.setReplica r (replica.answer call record (.ok (hit claim))))
  | acquire (free : replica.lock p = none) :
      CallCase .waiting (.acquire r call)
        (state.setReplica r ({ replica with
          lock := set replica.lock p (some call) }.advance call record key .recheckOwner))
  | refuse {stage} (late : stage = .recheckOwner ∨ stage = .recheckWarm) :
      CallCase stage (.check r call)
        (state.setReplica r (replica.finish call p record (.error .unavailable)))
  | owner (owns : replica.owns p = true) :
      CallCase .recheckOwner (.check r call)
        (state.setReplica r (replica.advance call record key .recheckWarm))
  | warm (isWarm : replica.isWarm = true) :
      CallCase .recheckWarm (.check r call)
        (state.setReplica r (replica.advance call record key .recheck))
  | hit {claim} (found : replica.map key = some claim) :
      CallCase .recheck (.check r call)
        (state.setReplica r (replica.finish call p record (.ok (hit claim))))
  | miss (absent : replica.map key = none) :
      CallCase .recheck (.check r call)
        (state.setReplica r (replica.advance call record key .opening))
  | reuse {handle} (filled : replica.slot p = some handle) :
      CallCase .opening (.check r call)
        (state.setReplica r (replica.advance call record key .beginning))
  | opened (empty : replica.slot p = none) :
      CallCase .opening (.opened r call none)
        ((state.fence p (some r)).setReplica r
          ({ replica with
            slot := set replica.slot p (some ⟨state.epoch p + 1, .clean⟩) }.advance call record key
              .beginning))
  | openFailed {error} (empty : replica.slot p = none) :
      CallCase .opening (.opened r call (some error))
        (state.setReplica r (replica.fail call p record (.producer error) false))
  | began {epoch} (clean : replica.slot p = some ⟨epoch, .clean⟩) :
      CallCase .beginning (.began r call none)
        (state.setReplica r ({ replica with
          slot := set replica.slot p (some ⟨epoch, .busy⟩) }.advance call record key .sendingData))
  | beginFailed {handle error} (filled : replica.slot p = some handle)
      (told : handle.state = .clean ∨ error = .recoveryRequired) :
      CallCase .beginning (.began r call (some error))
        (state.setReplica r (replica.fail call p record (.producer error)
          (error = .recoveryRequired)))
  | sentData {epoch place offset} (busy : replica.slot p = some ⟨epoch, .busy⟩)
      (current : epoch = state.epoch p) :
      CallCase .sendingData (.sentData r call (.ok (place, offset)))
        ((state.setShard p
          { state.shards p with draft := some ⟨key, record.topic, place, offset⟩ }).setReplica r
          (replica.advance call record key (.sendingClaim ⟨record.topic, place, offset⟩)))
  | sentClaim {epoch claim} (busy : replica.slot p = some ⟨epoch, .busy⟩)
      (current : epoch = state.epoch p) :
      CallCase (.sendingClaim claim) (.sentClaim r call none)
        (state.setReplica r (replica.advance call record key (.ending claim)))
  | abandon {stage action error} (abandons : Abandons stage) :
      CallCase stage action
        (state.setReplica r (replica.advance call record key (.aborting error)))
  | endTxn {epoch claim} (busy : replica.slot p = some ⟨epoch, .busy⟩) :
      CallCase (.ending claim) (.endTxn r call)
        ((state.setShard p
          { state.shards p with
            claims :=
              if epoch = (state.shards p).claims.epoch then
                { (state.shards p).claims with inflight := some (r, key, claim) }
              else (state.shards p).claims }).setReplica r
          ({ replica with
            slot := set replica.slot p (some ⟨epoch, .unresolved⟩)
            unsure := set replica.unsure p (some key)
            landed := set replica.landed p false }.advance call record key (.committing claim)))
  | committed {epoch claim} (sent : replica.slot p = some ⟨epoch, .unresolved⟩)
      (landed : replica.landed p = true) :
      CallCase (.committing claim) (.committed r call)
        (state.setReplica r ({ replica with
          slot := set replica.slot p (some ⟨epoch, .clean⟩)
          map := set replica.map key (some claim)
          unsure := set replica.unsure p none }.finish call p record
            (.ok ⟨claim.partition, claim.offset, false⟩)))
  | commitRefused {epoch claim error} (sent : replica.slot p = some ⟨epoch, .unresolved⟩)
      (lost : replica.landed p = false) :
      CallCase (.committing claim) (.commitFailed r call true error)
        ((state.setShard p
          { state.shards p with
            claims :=
              if (state.shards p).claims.inflight.any (fun sent => sent.1 = r) then
                { (state.shards p).claims with inflight := none }
              else (state.shards p).claims }).setReplica r
          ({ replica with
            slot := set replica.slot p (some ⟨epoch, .busy⟩)
            unsure := set replica.unsure p none }.advance call record key
              (.aborting (.producer error))))
  | abortConfirmed {epoch error} (busy : replica.slot p = some ⟨epoch, .busy⟩) :
      CallCase (.aborting error) (.aborted r call true)
        ((state.setShard p
          { state.shards p with
            draft := if epoch = state.epoch p then none else (state.shards p).draft }).setReplica r
          (replica.fail call p record error false))
  | abortFailed {error} :
      CallCase (.aborting error) (.aborted r call false)
        (state.setReplica r (replica.fail call p record error true))
  | cancelWaiting :
      CallCase .waiting (.cancel r call)
        (state.setReplica r { replica with calls := set replica.calls call .cancelled })
  | cancel {stage} (suspended : stage.suspended = true) (locked : stage.locked = true) :
      CallCase stage (.cancel r call)
        (state.setReplica r { replica with
          calls := set replica.calls call .cancelled
          lock := set replica.lock p none })

abbrev CallEvent : Stage → Action → State → Prop :=
  CallCase state r call record key (state.replicas r) (setup.partitionOf key)

end

variable {setup}

def Action.target : Action → Option (Nat × Nat)
  | .check r call | .acquire r call | .opened r call _ | .began r call _ | .sentData r call _
  | .sentClaim r call _ | .endTxn r call | .committed r call | .commitFailed r call _ _
  | .aborted r call _ | .cancel r call => some (r, call)
  | _ => none

variable {state : State}

theorem callEvent_of_check {next : State} {r call : Nat} {record : GatewayRecord} {key : String}
    {stage : Stage}
    (taken : (State.check setup (state.replicas r) call record key stage).map (state.setReplica r) =
      some next) : CallEvent setup state r call record key stage (.check r call) next := by
  obtain ⟨replica, checked, rfl⟩ := Option.map_eq_some_iff.mp taken
  cases stage with
  | checkOwner =>
    cases checked
    split
    · rename_i owns
      exact .pass (.owner owns)
    · exact .refuseEarly (.inl rfl)
  | checkWarm =>
    cases checked
    split
    · rename_i isWarm
      exact .pass (.warm isWarm)
    · exact .refuseEarly (.inr rfl)
  | lookup =>
    cases checked
    split
    · rename_i claim found
      exact .hitEarly found
    · rename_i absent
      exact .pass (.lookup absent)
  | recheckOwner =>
    cases checked
    split
    · rename_i owns
      exact .owner owns
    · exact .refuse (.inl rfl)
  | recheckWarm =>
    cases checked
    split
    · rename_i isWarm
      exact .warm isWarm
    · exact .refuse (.inr rfl)
  | recheck =>
    cases checked
    split
    · rename_i claim found
      exact .hit found
    · rename_i absent
      exact .miss absent
  | opening =>
    simp only [State.check, Option.ite_none_right_eq_some, Option.some.injEq] at checked
    obtain ⟨filled, rfl⟩ := checked
    obtain ⟨handle, filled⟩ := Option.isSome_iff_exists.mp filled
    exact .reuse filled
  | _ => contradiction

theorem callEvent_of_cancel {r call : Nat} {record : GatewayRecord} {key : String} {stage : Stage}
    (suspended : stage.suspended = true) :
    CallEvent setup state r call record key stage (.cancel r call)
      (state.setReplica r { state.replicas r with
        calls := set (state.replicas r).calls call .cancelled
        lock :=
          if stage.locked then set (state.replicas r).lock (setup.partitionOf key) none
          else (state.replicas r).lock }) := by
  cases locked : stage.locked with
  | true => exact .cancel suspended locked
  | false =>
    obtain rfl : stage = .waiting := by
      cases stage <;> simp [Stage.suspended, Stage.locked] at suspended locked ⊢
    exact .cancelWaiting

theorem callEvent_of_callStep {next : State} {r call : Nat} {record : GatewayRecord} {key : String}
    {stage : Stage} {action : Action} (mine : action.target = some (r, call))
    (taken : State.callStep setup state r call record key stage action = some next) :
    CallEvent setup state r call record key stage action next := by
  unfold State.callStep at taken
  dsimp only at taken
  split at taken
  · cases mine
    exact callEvent_of_check taken
  · cases mine
    obtain ⟨free, ⟨⟩⟩ := Option.ite_none_right_eq_some.mp taken
    exact .acquire free
  · rename_i empty
    cases mine
    cases taken
    exact .opened empty
  · rename_i empty
    cases mine
    cases taken
    exact .openFailed empty
  · rename_i clean
    cases mine
    cases taken
    exact .began clean
  · rename_i filled
    cases mine
    obtain ⟨told, ⟨⟩⟩ := Option.ite_none_right_eq_some.mp taken
    exact .beginFailed filled told
  · rename_i busy
    cases mine
    obtain ⟨current, ⟨⟩⟩ := Option.ite_none_right_eq_some.mp taken
    exact .sentData busy current
  · cases mine
    cases taken
    exact .abandon .data
  · rename_i busy
    cases mine
    obtain ⟨current, ⟨⟩⟩ := Option.ite_none_right_eq_some.mp taken
    exact .sentClaim busy current
  · cases mine
    cases taken
    exact .abandon (.claim _)
  · rename_i busy
    cases mine
    cases taken
    exact .endTxn busy
  · rename_i sent
    cases mine
    obtain ⟨landed, ⟨⟩⟩ := Option.ite_none_right_eq_some.mp taken
    exact .committed sent landed
  · rename_i sent
    cases mine
    simp only [Option.ite_none_left_eq_some, Option.some.injEq, Bool.not_eq_true] at taken
    obtain ⟨lost, rfl⟩ := taken
    exact .commitRefused sent lost
  · cases mine
    cases taken
    exact .abandon (.commit _)
  · cases mine
    cases taken
    exact .abandon (.ending _)
  · rename_i busy
    cases mine
    cases taken
    exact .abortConfirmed busy
  · cases mine
    cases taken
    exact .abortFailed
  · cases mine
    obtain ⟨suspended, ⟨⟩⟩ := Option.ite_none_right_eq_some.mp taken
    exact callEvent_of_cancel suspended
  · contradiction

/-! ## The ownership loop -/

variable (setup)

section

variable (state : State) (r : Nat) (replica : Replica)

inductive LoopCase : Action → State → Prop where
  | revoke {partitions} (polling : replica.phase = .polling) (handled : replica.batch = []) :
      LoopCase (.revoke r partitions)
        (state.setReplica r { replica.leave partitions with
          warm := false
          emptyPolls := 0
          targets := []
          owned := replica.owned.filter fun partition => !partitions.contains partition
          assigned := replica.assigned.filter fun partition => !partitions.contains partition
          phase := .purging (replica.owned.filter partitions.contains) partitions })
  | purge {gone revoked} (purging : replica.phase = .purging gone revoked) :
      LoopCase (.purge r)
        (state.setReplica r { replica with
          map := fun key =>
            if gone.contains (setup.partitionOf key) then none else replica.map key
          phase := if revoked.isEmpty then .polling else .releasing revoked })
  | release {partition rest} (releasing : replica.phase = .releasing (partition :: rest))
      (free : replica.lock partition = none) :
      LoopCase (.release r)
        (state.setReplica r { replica with
          slot := set replica.slot partition none
          phase := if rest.isEmpty then .polling else .releasing rest })
  | assign {partitions} (polling : replica.phase = .polling) (handled : replica.batch = []) :
      LoopCase (.assign r partitions)
        (state.setReplica r { replica with
          warm := false
          assigned := replica.assigned ++
            partitions.filter fun partition => !replica.assigned.contains partition
          phase := .preparing partitions partitions })
  | prepare {partition todo all} (preparing : replica.phase = .preparing (partition :: todo) all)
      (free : replica.lock partition = none) :
      LoopCase (.prepare r true)
        ((state.fence partition (some r)).setReplica r { replica with
          slot := set replica.slot partition (some ⟨state.epoch partition + 1, .clean⟩)
          status := set replica.status partition .prepared
          unsure := set replica.unsure partition none
          phase := .preparing todo all })
  | prepareFailed {partition todo all}
      (preparing : replica.phase = .preparing (partition :: todo) all)
      (free : replica.lock partition = none) :
      LoopCase (.prepare r false)
        (state.setReplica r { replica.leave [partition] with
          slot := set replica.slot partition none
          phase := .stopping })
  | measure {all} (preparing : replica.phase = .preparing [] all) :
      LoopCase (.measure r)
        (state.setReplica r { replica with
          position := fun partition =>
            if all.contains partition then 0 else replica.position partition
          targets := replica.assigned.map fun partition =>
            (partition, (state.shards partition).claims.log.length)
          status := fun partition =>
            if all.contains partition then .replaying else replica.status partition
          phase := .installing })
  | install (installing : replica.phase = .installing) :
      LoopCase (.install r)
        (state.setReplica r { replica.leave
            (replica.owned.filter fun partition => !replica.assigned.contains partition) with
          warm := false
          emptyPolls := 0
          owned := replica.assigned
          phase := .purging
            (replica.owned.filter fun partition => !replica.assigned.contains partition) [] })
  | fetch {partition entry} (polling : replica.phase = .polling)
      (assigned : replica.assigned.contains partition = true)
      (found : (state.shards partition).claims.log[replica.position partition]? = some entry) :
      LoopCase (.fetch r partition)
        (state.setReplica r { replica with
          position := set replica.position partition (replica.position partition + 1)
          batch :=
            if entry.gone then replica.batch
            else replica.batch ++ [(partition, replica.position partition)] })
  | deliverStop (polling : replica.phase = .polling) (restart : replica.restartRequired = true) :
      LoopCase (.deliver r) (state.setReplica r { replica with phase := .stopping })
  | deliver (polling : replica.phase = .polling) (running : replica.restartRequired = false) :
      LoopCase (.deliver r)
        (state.setReplica r { replica with
          emptyPolls := if replica.batch.isEmpty then replica.emptyPolls + 1 else 0
          phase := .processing })
  | process {partition index rest entry} (processing : replica.phase = .processing)
      (next : replica.batch = (partition, index) :: rest)
      (found : (state.shards partition).claims.log[index]? = some entry) :
      LoopCase (.process r)
        (state.setReplica r { replica with
          batch := rest
          map :=
            if replica.owns partition then entry.content.apply replica.map else replica.map })
  | settleWarm (processing : replica.phase = .processing) (handled : replica.batch = [])
      (complete : replica.replayComplete = true) :
      LoopCase (.settle r)
        (state.setReplica r { replica with
          warm := true
          status := fun partition =>
            if replica.status partition = .replaying ∧
                (replica.targets.lookup partition).isSome then .ready
            else replica.status partition
          phase := .polling })
  | settleCold (processing : replica.phase = .processing) (handled : replica.batch = []) :
      LoopCase (.settle r) (state.setReplica r { replica with phase := .polling })
  | stop (polling : replica.phase = .polling) :
      LoopCase (.stop r) (state.setReplica r { replica with phase := .stopping })
  | quit (stopping : replica.phase = .stopping) :
      LoopCase (.quit r)
        (state.setReplica r { replica with
          warm := false
          owned := []
          status := fun _ => .absent
          phase := .clearing })
  | clear (clearing : replica.phase = .clearing) :
      LoopCase (.clear r)
        (state.setReplica r { replica with map := fun _ => none, phase := .exited })

abbrev LoopEvent : Action → State → Prop :=
  LoopCase setup state r (state.replicas r)

end

variable {setup}

def Action.loop : Action → Option Nat
  | .revoke r _ | .purge r | .release r | .assign r _ | .prepare r _ | .measure r | .install r
  | .fetch r _ | .deliver r | .process r | .settle r | .stop r | .quit r | .clear r => some r
  | _ => none

theorem loopEvent_of_loopStep {next : State} {r : Nat} {action : Action}
    (mine : action.loop = some r) (taken : State.loopStep setup state r action = some next) :
    LoopEvent setup state r action next := by
  unfold State.loopStep at taken
  dsimp only at taken
  split at taken
  · rename_i polling
    cases mine
    obtain ⟨handled, ⟨⟩⟩ := Option.ite_none_right_eq_some.mp taken
    exact .revoke polling handled
  · rename_i purging
    cases mine
    cases taken
    exact .purge purging
  · rename_i releasing
    cases mine
    obtain ⟨free, ⟨⟩⟩ := Option.ite_none_right_eq_some.mp taken
    exact .release releasing free
  · rename_i polling
    cases mine
    obtain ⟨handled, ⟨⟩⟩ := Option.ite_none_right_eq_some.mp taken
    exact .assign polling handled
  · rename_i preparing
    cases mine
    obtain ⟨free, ⟨⟩⟩ := Option.ite_none_right_eq_some.mp taken
    exact .prepare preparing free
  · rename_i preparing
    cases mine
    obtain ⟨free, ⟨⟩⟩ := Option.ite_none_right_eq_some.mp taken
    exact .prepareFailed preparing free
  · rename_i preparing
    cases mine
    cases taken
    exact .measure preparing
  · rename_i installing
    cases mine
    cases taken
    exact .install installing
  · rename_i polling
    cases mine
    split at taken
    · rename_i assigned
      split at taken
      · contradiction
      · rename_i entry found
        cases taken
        exact .fetch polling assigned found
    · contradiction
  · rename_i polling
    cases mine
    split at taken
    · rename_i restart
      cases taken
      exact .deliverStop polling restart
    · rename_i running
      cases taken
      exact .deliver polling (Bool.not_eq_true _ ▸ running)
  · rename_i processing
    cases mine
    split at taken
    · contradiction
    · rename_i partition index rest batch
      split at taken
      · contradiction
      · rename_i entry found
        cases taken
        exact .process processing batch found
  · rename_i processing
    cases mine
    split at taken
    · rename_i handled
      split at taken
      · rename_i ready
        cases taken
        exact .settleWarm processing handled ready.2.2
      · cases taken
        exact .settleCold processing handled
    · contradiction
  · rename_i polling
    cases mine
    cases taken
    exact .stop polling
  · rename_i stopping
    cases mine
    cases taken
    exact .quit stopping
  · rename_i clearing
    cases mine
    cases taken
    exact .clear clearing
  · contradiction

/-! ## The broker and the whole -/

inductive BrokerEvent (state : State) : Action → State → Prop where
  | land {partition node key claim}
      (sent : (state.shards partition).claims.inflight = some (node, key, claim)) :
      BrokerEvent state (.land partition)
        { (state.setShard partition
            { claims :=
                { (state.shards partition).claims with
                  inflight := none
                  log := record (state.shards partition).claims.log key claim
                  data := (state.shards partition).claims.data ++
                    [(key, (state.shards partition).claims.log.length)] }
              draft := none }).setReplica node
                { state.replicas node with
                  landed := set (state.replicas node).landed partition true } with
          records := state.records ++ (state.shards partition).draft.toList }
  | expire {partition} :
      BrokerEvent state (.expire partition)
        (state.fence partition (state.shards partition).claims.writer)
  | stray {r partition} :
      BrokerEvent state (.stray r partition)
        (state.fence partition
          (if (state.shards partition).claims.writer = some r then some r else none))
  | discard {partition index}
      (last : Discardable (state.shards partition).claims.log index) :
      BrokerEvent state (.discard partition index)
        (state.setShard partition
          { state.shards partition with
            claims :=
              { (state.shards partition).claims with
                log := discard (state.shards partition).claims.log index } })

variable (setup) in
inductive Event (state : State) : Action → State → Prop where
  | keyless {r call record} (idle : (state.replicas r).calls call = .idle)
      (keyless : record.idempotencyKey = none) :
      Event state (.start r call record)
        (state.setReplica r ((state.replicas r).answer call record
          (.error (.other "dedup_produce called without idempotency_key"))))
  | start {r call record key} (idle : (state.replicas r).calls call = .idle)
      (keyed : record.idempotencyKey = some key) :
      Event state (.start r call record)
        (state.setReplica r ((state.replicas r).advance call record key .checkOwner))
  | call {r call record key stage action next} (mine : action.target = some (r, call))
      (here : At setup state r call record key stage)
      (event : CallEvent setup state r call record key stage action next) : Event state action next
  | loop {r action next} (event : LoopEvent setup state r action next) : Event state action next
  | broker {action next} (event : BrokerEvent state action next) : Event state action next

theorem event_of_atCall {next : State} {r call : Nat} {action : Action}
    (mine : action.target = some (r, call)) (taken : state.atCall setup r call action = some next) :
    Event setup state action next := by
  unfold State.atCall at taken
  split at taken
  · rename_i record key stage running
    split at taken
    · contradiction
    · rename_i held
      refine .call mine ⟨running, fun locked => ?_⟩ (callEvent_of_callStep mine taken)
      by_contra free
      exact held ⟨locked, free⟩
  · contradiction

theorem event_of_brokerStep {next : State} {action : Action}
    (taken : state.brokerStep action = some next) : Event setup state action next := by
  cases action with
  | land partition =>
    simp only [State.brokerStep] at taken
    split at taken
    · contradiction
    · rename_i node key claim sent
      cases taken
      exact .broker (.land sent)
  | expire partition =>
    cases taken
    exact .broker .expire
  | stray r partition =>
    cases taken
    exact .broker .stray
  | discard partition index =>
    simp only [State.brokerStep, Option.ite_none_right_eq_some, Option.some.injEq] at taken
    obtain ⟨can, rfl⟩ := taken
    exact .broker (.discard (discardable_of_canDiscard can))
  | _ => contradiction

theorem event_of_step {next : State} {action : Action}
    (taken : state.step setup action = some next) : Event setup state action next := by
  cases action with
  | start r call record =>
    simp only [State.step, State.startCall] at taken
    split at taken
    · rename_i idle
      cases taken
      split
      · rename_i keyless
        exact .keyless idle keyless
      · rename_i key keyed
        exact .start idle keyed
    · contradiction
  | land | expire | stray | discard => exact event_of_brokerStep taken
  | check | acquire | opened | began | sentData | sentClaim | endTxn | committed | commitFailed
  | aborted | cancel => exact event_of_atCall rfl taken
  | revoke | purge | release | assign | prepare | measure | install | fetch | deliver | process
  | settle | stop | quit | clear => exact .loop (loopEvent_of_loopStep rfl taken)

end KrabkaGateway.Dedup
