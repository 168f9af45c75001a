import KrabkaGateway.Lib.WindowRun
import KrabkaGateway.Produce
import KrabkaGateway.Queue.Table

/-!
# Sending a batch

`send` of `handlers.rs` with its `SendWindow`. A record that the caller may not write
is answered at once; a plain record is handed to the producer and its acknowledgement
is awaited in the window; a record with an idempotency key is produced alone. The
decisions of the authorizer, the answers of the codec, the producers and the dedup
path, and the order in which deliveries are acknowledged come from outside.
-/

namespace KrabkaGateway.Send

open Lib Lib.Window

/-! ## The request -/

namespace Pb

structure SchemaSelector where
  subject : String
  id : Int32
  format : Int32
  deriving DecidableEq, Repr

inductive Body where
  | raw (bytes : Bytes)
  | structured (json : Bytes)
  deriving DecidableEq, Repr

structure Header where
  key : String
  value : Option Bytes
  deriving DecidableEq, Repr

structure Record where
  topic : String
  key : Option Bytes
  body : Option Body
  headers : List Header
  partition : Option Int32
  timestampMs : Option Int64
  idempotencyKey : Option String
  schema : Option SchemaSelector
  deriving DecidableEq, Repr

structure SendRequest where
  records : List Record
  acks : Int32
  deriving DecidableEq, Repr

end Pb

def schemaFormatFromPb (format : Int32) : SchemaFormat :=
  if format = 2 then .json else if format = 3 then .protobuf else .avro

def schemaSelectorFromPb (selector : Pb.SchemaSelector) : SchemaSelector where
  subject := if selector.subject = "" then none else some selector.subject
  id := if selector.id = 0 then none else some selector.id
  format := schemaFormatFromPb selector.format

def toGatewayRecord (record : Pb.Record) : GatewayRecord :=
  let selector := record.schema.map schemaSelectorFromPb
  let (value, bodyStructured) :=
    match record.body with
    | some (.structured json) =>
      ([], some (json, selector.getD { subject := none, id := none, format := .avro }))
    | some (.raw raw) => (raw, none)
    | none => ([], none)
  { topic := record.topic
    key := record.key
    value
    bodyStructured
    headers := record.headers.map fun header => (header.key, header.value)
    partition := record.partition
    timestampMs := record.timestampMs
    idempotencyKey := record.idempotencyKey }

def producerAcksFromPb (acks : Int32) : Option Acks :=
  if acks = 0 then some .all else if acks = 1 then some .one else if acks = 2 then some .zero
  else none

/-! ## One record -/

def enqueuePlainWithAcks {Handle : Type} (codec : RecordCodec)
    (enqueue : Acks → ProducerRecord → Except ProducerError Handle) (record : GatewayRecord)
    (acks : Acks) : Except GatewayError Handle :=
  if record.idempotencyKey.isSome then
    .error (.other "idempotency_key requires the dedup produce path")
  else
    match codec.encode record.topic record.encodeBody with
    | .error source => .error (.codec source)
    | .ok value =>
      match enqueue acks (toProducerRecord record value) with
      | .error source => .error (.producer source)
      | .ok handle => .ok handle

def delivered : Except ProducerError (Int32 × Int64) → Except GatewayError RecordOutcome
  | .ok (partition, offset) => .ok { partition, offset, deduplicated := false }
  | .error source => .error (.producer source)

def unauthorizedResult (record : GatewayRecord) : RecordResult :=
  errorResult (.unauthorized ("Write Topic:" ++ record.topic))

/-- A call of `send`: its caller and the acknowledgements it asks for. -/
structure Call (Cache : Type) where
  authz : GatewayAuthz Cache
  principal : Principal
  host : SocketAddr
  acks : Acks

namespace Call

variable {Cache : Type} (call : Call Cache)

/-- What is done with a record under the ACLs in force. -/
def classify (record : GatewayRecord) (cache : Cache) : Kind RecordResult :=
  if authorizeResource { call.authz with cache } call.principal call.host .topic record.topic
      .write = .deny then
    .settled (unauthorizedResult record)
  else if record.idempotencyKey.isSome then .barrier
  else .windowed

end Call

/-! ## The loop -/

def sendWindowCapacity : Nat := 64

abbrev SendState := State GatewayRecord RecordResult

inductive SendAction (Cache : Type) where
  /-- The next record is checked. -/
  | authorize (cache : Cache)
  | close
  | enqueue (codec : RecordCodec) (queued : Acks → ProducerRecord → Except ProducerError Unit)
  | acknowledge (index : Nat) (answer : Except ProducerError (Int32 × Int64))
  | yield
  | drained
  | produce (core : ProduceCore)

namespace Call

variable {Cache : Type} (call : Call Cache)

def action (phase : Phase GatewayRecord) : SendAction Cache → Option (Action Cache RecordResult)
  | .authorize cache => some (.take cache)
  | .close => some .close
  | .enqueue codec queued =>
    match phase with
    | .admitting record =>
      match enqueuePlainWithAcks codec queued record call.acks with
      | .ok _ => some .enter
      | .error error => some (.refuse (sendResult (.error error)))
    | _ => none
  | .acknowledge index answer => some (.complete index (sendResult (delivered answer)))
  | .yield => some .yield
  | .drained => some .drained
  | .produce core =>
    match phase with
    | .alone record =>
      some (.done (sendResult (core.produceWithAcks record call.principal call.acks)))
    | _ => none

def step (state : SendState) (action : SendAction Cache) : Option SendState :=
  (call.action state.phase action).bind (state.step sendWindowCapacity call.classify)

end Call

/-- The call and the loop it starts, or the error of a request that asks for unknown
acknowledgements. -/
def send {Cache : Type} (authz : GatewayAuthz Cache) (principal : Option Principal)
    (peer : Option SocketAddr) (request : Pb.SendRequest) :
    Except Queue.ConnectError (Call Cache × SendState) :=
  match producerAcksFromPb request.acks with
  | none => .error (.invalidArgument ("unknown acknowledgement mode " ++ toString request.acks))
  | some acks =>
    .ok ({ authz, principal := principal.getD anonymousPrincipal, host := peer.getD unknownHost,
           acks }, State.start (request.records.map toGatewayRecord))

/-! ## The results of a record -/

/-- The results that a record of each kind can have, in the window and outside. -/
inductive Call.Answers {Cache : Type} (call : Call Cache) (record : GatewayRecord) :
    Kind RecordResult → Bool → RecordResult → Prop where
  | denied :
      call.Answers record (.settled (unauthorizedResult record)) false (unauthorizedResult record)
  | refused {codec : RecordCodec} {queued : Acks → ProducerRecord → Except ProducerError Unit}
      {error : GatewayError}
      (failed : enqueuePlainWithAcks codec queued record call.acks = .error error) :
      call.Answers record .windowed false (sendResult (.error error))
  | acknowledged (answer : Except ProducerError (Int32 × Int64)) :
      call.Answers record .windowed true (sendResult (delivered answer))
  | produced (core : ProduceCore) :
      call.Answers record .barrier false
        (sendResult (core.produceWithAcks record call.principal call.acks))

section Run

variable {Cache : Type} {call : Call Cache}

variable {record : GatewayRecord}

theorem answers_of_settled {cache : Cache} {result : RecordResult}
    (settled : call.classify record cache = .settled result) :
    call.Answers record (.settled result) false result := by
  unfold Call.classify at settled
  split at settled
  · cases settled
    exact .denied
  · split at settled <;> cases settled

variable {state : SendState}

/-- A step of the loop is one of the window, with a result that the record can have. -/
theorem window_of_step {next : SendState} {action : SendAction Cache}
    (taken : call.step state action = some next) :
    ∃ other, Fitting call.Answers state other ∧
      state.step sendWindowCapacity call.classify other = some next := by
  obtain ⟨other, translated, moved⟩ := Option.bind_eq_some_iff.mp taken
  refine ⟨other, ?_, moved⟩
  cases action with
  | enqueue codec queued =>
    simp only [Call.action] at translated
    split at translated
    · rename_i record phase
      split at translated
      · cases translated
        trivial
      · rename_i error failed
        cases translated
        intro item now
        cases phase.symm.trans now
        exact .refused failed
    · cases translated
  | acknowledge index answer =>
    cases translated
    exact fun _ item _ _ => .acknowledged answer
  | produce core =>
    simp only [Call.action] at translated
    split at translated
    · rename_i record phase
      cases translated
      intro item now
      cases phase.symm.trans now
      exact .produced core
    · cases translated
  | authorize | close | yield | drained =>
    cases translated
    trivial

variable (call) in
/-- A call that has not returned goes on when what it waits for comes. -/
theorem enabled_of_not_returned (unfinished : state.phase ≠ .returned) :
    ∃ action, (call.step state action).isSome := by
  let core : ProduceCore :=
    { codec := rawCodec, dedup := none, forwarding := none,
      send := fun _ _ => .error .recoveryRequired }
  cases phase : state.phase with
  | next =>
    cases rest : state.rest with
    | nil => exact ⟨.close, by simp [Call.step, Call.action, State.step, phase, rest]⟩
    | cons record others =>
      exact ⟨.authorize call.authz.cache,
        by simp [Call.step, Call.action, State.step, phase, rest]⟩
  | admitting record =>
    refine ⟨.enqueue rawCodec fun _ _ => .ok (), ?_⟩
    cases outcome : enqueuePlainWithAcks rawCodec (fun _ _ => .ok ()) record call.acks <;>
      simp [Call.step, Call.action, State.step, phase, outcome]
  | draining purpose =>
    cases pending : state.pending with
    | nil =>
      exact ⟨.drained, by
        cases purpose <;> simp [Call.step, Call.action, State.step, phase, pending]⟩
    | cons entry others =>
      obtain ⟨position, known⟩ := entry
      cases known with
      | none =>
        exact ⟨.acknowledge 0 (.error .recoveryRequired),
          by simp [Call.step, Call.action, State.step, pending]⟩
      | some result =>
        exact ⟨.yield, by simp [Call.step, Call.action, State.step, phase, pending]⟩
  | alone record =>
    exact ⟨.produce core, by simp [Call.step, Call.action, State.step, phase]⟩
  | returned => exact absurd phase unfinished

variable {records : List GatewayRecord} {i : Nat}

theorem classified_of_started (kept : Kept sendWindowCapacity call.classify records state)
    {kind : Kind RecordResult} (started : .started i record kind ∈ state.trace) :
    records[i]? = some record ∧ ∃ cache, kind = call.classify record cache := by
  obtain ⟨before, after, split⟩ := List.append_of_mem started
  have known := kept.story.ordered before _ after split
  exact ⟨known.1, known.2.1⟩

theorem answered_of_returned (kept : Kept sendWindowCapacity call.classify records state)
    (told : Told call.Answers state) (returned : state.phase = .returned)
    (found : records[i]? = some record) :
    ∃ cache result entered, state.results[i]? = some result ∧
      .started i record (call.classify record cache) ∈ state.trace ∧
      .finished i result ∈ state.trace ∧
      call.Answers record (call.classify record cache) entered result ∧
      (entered = true → .admitted i ∈ state.trace) := by
  obtain ⟨length, own⟩ := kept.results_of_returned returned
  have bound : i < state.results.length := length ▸ (List.getElem?_eq_some_iff.mp found).1
  have present : state.results[i]? = some state.results[i] := List.getElem?_eq_getElem bound
  have finished := (own i _).mp present
  obtain ⟨other, kind, entered, started, answers, admitted⟩ := told.finished i _ finished
  obtain ⟨same, cache, rfl⟩ := classified_of_started kept started
  cases found.symm.trans same
  exact ⟨cache, _, entered, present, started, finished, answers, admitted⟩

/-- In every run of a call each record gets one result, its own and in its place, and a delivery
only behind the producer's queue; plain records are handed to the producer in their order, a record
with a key is produced alone, and at most 64 deliveries wait. -/
theorem send_keeps_order_and_positions {authz : GatewayAuthz Cache} {principal : Option Principal}
    {peer : Option SocketAddr} {request : Pb.SendRequest} {start : SendState}
    (opened : send authz principal peer request = .ok (call, start))
    {actions : List (SendAction Cache)} {state : SendState}
    (run : Run.exec call.step start actions = some state) :
    (actions.length ≤ 5 * request.records.length + 2 ∧
      ((∀ action, call.step state action = none) → state.phase = .returned)) ∧
    (state.phase = .returned → state.results.length = request.records.length ∧
      ∀ (i : Nat) record, request.records[i]? = some record →
        ∃ cache result entered, state.results[i]? = some result ∧
          .started i (toGatewayRecord record) (call.classify (toGatewayRecord record) cache) ∈
            state.trace ∧
          .finished i result ∈ state.trace ∧
          call.Answers (toGatewayRecord record) (call.classify (toGatewayRecord record) cache)
            entered result ∧
          (entered = true → .admitted i ∈ state.trace)) ∧
    (finishedPositions state.trace).Nodup ∧
    ((admittedPositions state.trace).Pairwise (· < ·) ∧
      ∀ i, .admitted i ∈ state.trace → ∃ record, .started i record .windowed ∈ state.trace) ∧
    (∀ before i record kind after, state.trace = before ++ .started i record kind :: after →
      ((request.records.map toGatewayRecord)[i]? = some record ∧
        ∃ cache, kind = call.classify record cache) ∧
      (kind = .barrier → ∀ earlier < i, ∃ result, .finished earlier result ∈ before) ∧
      ∀ earlier < i, ∀ keyed, .started earlier keyed .barrier ∈ state.trace →
        ∃ result, .finished earlier result ∈ before) ∧
    state.pending.length ≤ 64 ∧
    ∀ record, state.phase = .admitting record → state.pending.length + 1 ≤ 64 := by
  obtain rfl : start = State.start (request.records.map toGatewayRecord) := by
    unfold send at opened
    split at opened <;> cases opened
    rfl
  obtain ⟨others, length, along, window⟩ :=
    Run.exec_of_refines (fun _ _ _ taken => window_of_step taken) run
  have kept := kept_of_run (by decide) window
  have told := told_of_run (fun _ _ _ settled => answers_of_settled settled) along window
  have story := kept.story
  refine ⟨⟨?_, ?_⟩, ?_, story.once, ⟨story.admitted, told.admitted⟩, ?_, kept.pending_le⟩
  · have bound := length_le_of_run window
    rwa [length, List.length_map] at bound
  · intro stuck
    by_contra unfinished
    obtain ⟨action, enabled⟩ := enabled_of_not_returned call unfinished
    rw [stuck action] at enabled
    cases enabled
  · intro returned
    refine ⟨(kept.results_of_returned returned).1.trans (List.length_map _), ?_⟩
    intro i record found
    refine answered_of_returned kept told returned ?_
    rw [List.getElem?_map, found, Option.map_some]
  · intro before i record kind after split
    have started : .started i record kind ∈ state.trace := by simp [split]
    have known := story.ordered before _ after split
    exact ⟨classified_of_started kept started, known.2.2.1, fun earlier less keyed barrier =>
      story.barrier_finished barrier less split⟩

end Run

/-- Everyone may write everywhere but to `audit`. -/
def auditProtected : GatewayAuthz Unit where
  authorizer _ request := if request.resourceName = "audit" then .deny else .allow
  cache := ()

def pbRecord (topic : String) (key : Option String) : Pb.Record where
  topic := topic
  key := none
  body := none
  headers := []
  partition := none
  timestampMs := none
  idempotencyKey := key
  schema := none

def mixedRequest : Pb.SendRequest where
  records := [pbRecord "audit" none, pbRecord "orders" none, pbRecord "orders" none,
    pbRecord "orders" (some "order-7"), pbRecord "orders" none]
  acks := 0

def producerAt (offset : Int64) : ProduceCore where
  codec := rawCodec
  dedup := none
  forwarding := none
  send := fun _ _ => .ok (0, offset)

/-- The second plain record is acknowledged before the first, and the last one is not queued. -/
def mixedDelivery : List (SendAction Unit) :=
  let queue := SendAction.enqueue rawCodec fun _ _ => .ok ()
  [.authorize (), .authorize (), queue, .authorize (), queue, .authorize (),
    .acknowledge 2 (.ok (0, 4)), .acknowledge 1 (.ok (0, 3)), .yield, .yield, .yield, .drained,
    .produce (producerAt 5), .authorize (),
    .enqueue rawCodec fun _ _ => .error .recoveryRequired, .close, .yield, .drained]

theorem mixed_batch_in_order :
    ∃ call start state, send auditProtected none none mixedRequest = .ok (call, start) ∧
      Run.exec call.step start mixedDelivery = some state ∧ state.phase = .returned ∧
      state.results.map RecordResult.offset = [-1, 3, 4, 5, -1] ∧
      state.results.length = mixedRequest.records.length ∧
      (finishedPositions state.trace).Nodup ∧ (admittedPositions state.trace).Pairwise (· < ·) := by
  obtain ⟨call, start, state, opened, run, returned, offsets⟩ :
      ∃ call start state, send auditProtected none none mixedRequest = .ok (call, start) ∧
        Run.exec call.step start mixedDelivery = some state ∧ state.phase = .returned ∧
        state.results.map RecordResult.offset = [-1, 3, 4, 5, -1] := ⟨_, _, _, rfl, rfl, rfl, rfl⟩
  obtain ⟨_, results, once, ⟨increasing, _⟩, _⟩ := send_keeps_order_and_positions opened run
  exact ⟨call, start, state, opened, run, returned, offsets, (results returned).1, once, increasing⟩

end KrabkaGateway.Send
