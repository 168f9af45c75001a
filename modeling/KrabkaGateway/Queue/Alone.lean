import KrabkaGateway.Queue.Table

/-!
# One client on one session

The calls of a client that makes one call after the other on a session that nobody else uses
and that stays in the table. Each call runs through the steps of its session by itself. The
broker never fails and the locks on records do not expire: a poll gets the oldest records that
the group can have, and a record that the session has can be acknowledged and renewed.
-/

namespace KrabkaGateway.Queue

open Lib

/-! ## The share group -/

/-- Where a record stands in the group; `own` if the member of the session has it. -/
inductive RecordState where
  | available
  | acquired (own : Bool)
  | archived
  deriving DecidableEq, Repr

structure ShareGroup where
  log : List Coordinate
  records : Coordinate → RecordState

structure Broker where
  record : Coordinate → ShareRecord
  coordinate_record : ∀ coordinate, (record coordinate).coordinate = coordinate

namespace ShareGroup

def available (share : ShareGroup) (topics : List String) : List Coordinate :=
  share.log.filter fun coordinate =>
    coordinate.topic ∈ topics ∧ share.records coordinate = .available

def acquire (share : ShareGroup) (batch : List Coordinate) : ShareGroup where
  log := share.log
  records := fun coordinate =>
    if coordinate ∈ batch then .acquired true else share.records coordinate

/-- The state of a record behind an acknowledgement, or behind a renewal. -/
def settled : Option AckType → RecordState
  | some .accept | some .reject => .archived
  | some .release => .available
  | none => .acquired true

/-- Take an acknowledgement or a renewal from the member of the session. -/
def acknowledge (share : ShareGroup) (ackType : Option AckType) (coordinate : Coordinate) :
    ShareGroup where
  log := share.log
  records :=
    if share.records coordinate = .acquired true then
      set share.records coordinate (settled ackType)
    else share.records

end ShareGroup

/-! ## Calls that run alone -/

/-- A poll from the point where it waits for the consumer. -/
def pollAlone (broker : Broker) (topics : List String) (session : Session) (share : ShareGroup)
    (call : Nat) : Option (Session × ShareGroup) := do
  let locked ← session.step (.lock call)
  let admitted ← locked.step (.admission call)
  match admitted.calls call with
  | .polling =>
    let batch := (share.available topics).take session.maximum
    let ended ← admitted.step (.answer call (.ok (batch.map broker.record)))
    return (ended, share.acquire batch)
  | _ => return (admitted, share)

/-- The acknowledgement that an entry of a request asks for. -/
def Handler.ackType (handler : Handler) (entry : AckEntry) : Option AckType :=
  match handler with
  | .acknowledge => ackTypeOf entry.ackType
  | .renew => none

def entryAlone (session : Session) (share : ShareGroup) (call : Nat) :
    Option (Session × ShareGroup) := do
  let next ← session.step (.next call)
  match next.calls call with
  | .sending handler entry _ _ =>
    let replied ← next.step (.reply call none)
    return (replied, share.acknowledge (handler.ackType entry) entry.coordinate)
  | _ => return (next, share)

def entriesAlone (session : Session) (share : ShareGroup) (call : Nat) :
    Nat → Option (Session × ShareGroup)
  | 0 => (session.step (.next call)).map fun ended => (ended, share)
  | remaining + 1 => do
      let (next, after) ← entryAlone session share call
      entriesAlone next after call remaining

structure Client where
  object : Object
  share : ShareGroup
  calls : Nat

namespace Client

def ended (client : Client) (ends : Session × ShareGroup) : Client where
  object := { client.object with session := ends.1 }
  share := ends.2
  calls := client.calls + 1

def refused (client : Client) : Client :=
  { client with calls := client.calls + 1 }

/-- The session of a first acquire, which waits to poll. -/
def start (table : Table) (principal : Principal) (share : ShareGroup) (request : AcquireRequest) :
    Client where
  object := table.newObject request principal
  share := share
  calls := 0

def create (broker : Broker) (table : Table) (principal : Principal) (share : ShareGroup)
    (request : AcquireRequest) : Option Client :=
  match validateLockDuration request.lockDurationMs,
      validateSubscription request.groupId request.topics with
  | .ok (), .ok () =>
    let client := start table principal share request
    (pollAlone broker client.object.topics client.object.session share 0).map client.ended
  | _, _ => none

def queueAcquire (broker : Broker) (client : Client) (request : AcquireRequest) : Option Client :=
  match validateLockDuration request.lockDurationMs, validateJoin client.object request with
  | .ok (), .ok () => do
      let waiting ← client.object.session.step (.acquire client.calls)
      let ends ← pollAlone broker client.object.topics waiting client.share client.calls
      return client.ended ends
  | _, _ => some client.refused

/-- An acknowledgement or a renewal on the session. -/
def queueHandle (client : Client) (handler : Handler) (entries : List AckEntry) :
    Option Client := do
  let waiting ← client.object.session.step (.handle client.calls handler entries)
  let working ← waiting.step (.lock client.calls)
  let ends ← entriesAlone working client.share client.calls entries.length
  return client.ended ends

end Client

def Call.succeeded : Call → Bool
  | .acquired (.ok _) => true
  | .answered results => results.all fun result => result.error.isNone
  | _ => false

/-! ## What they do -/

namespace Session

variable (session : Session) (call : Nat)

@[simp]
theorem hold_hold (first second : Call) :
    (session.hold call first).hold call second = session.hold call second := by
  simp [hold]

@[simp]
theorem leave_hold (first second : Call) :
    (session.hold call first).leave call second = session.leave call second := by
  simp [hold, leave]

theorem track_hold (tracked : Finset Coordinate) (state : Call) :
    (session.hold call state).track tracked = (session.track tracked).hold call state := rfl

end Session

section

variable (broker : Broker) (topics : List String) {session : Session} (share : ShareGroup)
  {call : Nat}

theorem coordinates_of_records (coordinates : List Coordinate) :
    (coordinates.map broker.record).map ShareRecord.coordinate = coordinates := by
  rw [List.map_map]
  conv_rhs => rw [← List.map_id coordinates]
  exact List.map_congr_left fun coordinate _ => broker.coordinate_record coordinate

theorem pollAlone_of_empty (free : session.lock = none)
    (waiting : session.calls call = .acquireWaiting) (empty : session.tracked = ∅)
    {batch : List Coordinate} (taken : (share.available topics).take session.maximum = batch) :
    pollAlone broker topics session share call =
      some ((session.track batch.toFinset).leave call (.acquired (.ok (batch.map broker.record))),
        share.acquire batch) := by
  have fits : (batch.map broker.record).length ≤ session.maximum := by
    rw [← taken, List.length_map]
    exact List.length_take_le _ _
  have locked : session.step (.lock call) = some (session.hold call .admitting) := by
    simp [Session.step, free, waiting]
  have admitted : (session.hold call .admitting).step (.admission call) =
      some (session.hold call .polling) := by
    simp [Session.step, Session.hold, canPoll, empty]
  have polling : (session.hold call .polling).calls call = .polling := set_self _ _ _
  have answered : (session.hold call .polling).step (.answer call (.ok (batch.map broker.record))) =
      some ((session.track batch.toFinset).leave call
        (.acquired (.ok (batch.map broker.record)))) := by
    rw [Session.step, polling]
    dsimp only
    rw [Session.endPoll_of_le (show (session.hold call .polling).tracked = ∅ from empty) call fits,
      coordinates_of_records, Session.track_hold, Session.leave_hold]
  simp [pollAlone, locked, admitted, polling, taken, answered]

theorem pollAlone_of_outstanding (free : session.lock = none)
    (waiting : session.calls call = .acquireWaiting) (outstanding : session.tracked ≠ ∅) :
    pollAlone broker topics session share call =
      some (session.leave call (.acquired (.error .outstanding)), share) := by
  have locked : session.step (.lock call) = some (session.hold call .admitting) := by
    simp [Session.step, free, waiting]
  have refused : (session.hold call .admitting).step (.admission call) =
      some (session.leave call (.acquired (.error .outstanding))) := by
    simp [Session.step, Session.hold, Session.leave, canPoll, outstanding]
  have state : (session.leave call (.acquired (.error .outstanding))).calls call =
      .acquired (.error .outstanding) := set_self _ _ _
  simp [pollAlone, locked, refused, state]

def Handler.Asks (handler : Handler) (entry : AckEntry) : Prop :=
  handler = .acknowledge → (ackTypeOf entry.ackType).isSome

def Handler.untracks (handler : Handler) (tracked : Finset Coordinate) (coordinate : Coordinate) :
    Finset Coordinate :=
  match handler with
  | .acknowledge => tracked.erase coordinate
  | .renew => tracked

variable {handler : Handler} {entry : AckEntry}

variable (session call) in
theorem nextEntry_of_asks (asks : handler.Asks entry) (rest : List AckEntry)
    (results : List AckResult) :
    (session.hold call (.working handler (entry :: rest) results)).step (.next call) =
      some (session.hold call (if entry.coordinate ∈ session.tracked then
        .sending handler entry rest results
      else .working handler rest (results ++ [{ entry, error := some notAcquiredError }]))) := by
  have typed : ¬ (handler = .acknowledge ∧ (ackTypeOf entry.ackType).isNone) := by
    rintro ⟨own, missing⟩
    have given := asks own
    rw [Option.isNone_iff_eq_none] at missing
    simp [missing] at given
  have state : (session.hold call (.working handler (entry :: rest) results)).calls call =
      .working handler (entry :: rest) results := set_self _ _ _
  rw [Session.step, state]
  dsimp only
  rw [Session.nextEntry, if_neg typed]
  by_cases tracked : entry.coordinate ∈ session.tracked
  · rw [if_pos (show entry.coordinate ∈ (session.hold call _).tracked from tracked), if_pos tracked,
      Session.hold_hold]
  · rw [if_neg (show entry.coordinate ∉ (session.hold call _).tracked from tracked), if_neg tracked,
      Session.hold_hold]

/-- The result of an entry. -/
def answerFor (session : Session) (entry : AckEntry) : AckResult where
  entry := entry
  error := if entry.coordinate ∈ session.tracked then none else some notAcquiredError

variable (call) in
theorem entryAlone_of_asks (asks : handler.Asks entry) (rest : List AckEntry)
    (results : List AckResult) :
    entryAlone (session.hold call (.working handler (entry :: rest) results)) share call =
      some ((session.track (handler.untracks session.tracked entry.coordinate)).hold call
          (.working handler rest (results ++ [answerFor session entry])),
        if entry.coordinate ∈ session.tracked then
          share.acknowledge (handler.ackType entry) entry.coordinate
        else share) := by
  have next := nextEntry_of_asks session call asks rest results
  by_cases tracked : entry.coordinate ∈ session.tracked
  · rw [if_pos tracked] at next
    have sending : (session.hold call (.sending handler entry rest results)).calls call =
        .sending handler entry rest results := set_self _ _ _
    have replied : (session.hold call (.sending handler entry rest results)).step
        (.reply call none) =
          some ((session.track (handler.untracks session.tracked entry.coordinate)).hold call
            (.working handler rest (results ++ [{ entry, error := none }]))) := by
      rw [Session.step, sending]
      cases handler <;>
        simp [acknowledgementReleasesTracking, Handler.untracks, Session.track_hold] <;> rfl
    simp [entryAlone, next, sending, replied, answerFor, tracked]
  · rw [if_neg tracked] at next
    have working : ∀ state, (session.hold call state).calls call = state :=
      fun state => set_self _ _ _
    have same : handler.untracks session.tracked entry.coordinate = session.tracked := by
      cases handler <;> simp [Handler.untracks, tracked]
    simp [entryAlone, next, working, answerFor, tracked, same, Session.track]

variable (call) in
theorem entriesAlone_cons (asks : handler.Asks entry) (rest : List AckEntry)
    (results : List AckResult) (remaining : Nat) :
    entriesAlone (session.hold call (.working handler (entry :: rest) results)) share call
        (remaining + 1) =
      entriesAlone ((session.track (handler.untracks session.tracked entry.coordinate)).hold call
          (.working handler rest (results ++ [answerFor session entry])))
        (if entry.coordinate ∈ session.tracked then
          share.acknowledge (handler.ackType entry) entry.coordinate
        else share) call remaining := by
  rw [entriesAlone, entryAlone_of_asks share call asks]
  rfl

theorem entriesAlone_nil (handler : Handler) (results : List AckResult) :
    entriesAlone (session.hold call (.working handler [] results)) share call 0 =
      some (session.leave call (.answered results), share) := by
  have state : (session.hold call (.working handler [] results)).calls call =
      .working handler [] results := set_self _ _ _
  rw [entriesAlone, Session.step, state]
  simp

end

namespace Client

variable (broker : Broker) {client : Client}

def waiting (client : Client) : Session :=
  { client.object.session with
    calls := set client.object.session.calls client.calls .acquireWaiting }

theorem leave_waiting (tracked : Finset Coordinate) (state : Call) :
    (client.waiting.track tracked).leave client.calls state =
      (client.object.session.track tracked).leave client.calls state := by
  simp [waiting, Session.track, Session.leave]

variable {request : AcquireRequest}

theorem create_of_ok (table : Table) (principal : Principal) (share : ShareGroup)
    (lock : validateLockDuration request.lockDurationMs = .ok ())
    (subscription : validateSubscription request.groupId request.topics = .ok ())
    {batch : List Coordinate} (taken : (share.available request.topics).take
      (Session.start request.maxMessages).maximum = batch) :
    create broker table principal share request =
      some ((start table principal share request).ended
        (((start table principal share request).object.session.track batch.toFinset).leave 0
          (.acquired (.ok (batch.map broker.record))), share.acquire batch)) := by
  have polled := pollAlone_of_empty broker request.topics share
    (show (start table principal share request).object.session.lock = none from rfl)
    (show (start table principal share request).object.session.calls 0 = .acquireWaiting from rfl)
    rfl taken
  rw [create, lock, subscription]
  exact congrArg (Option.map (start table principal share request).ended) polled

theorem queueAcquire_of_ok (lock : validateLockDuration request.lockDurationMs = .ok ())
    (join : validateJoin client.object request = .ok ())
    (idle : client.object.session.calls client.calls = .idle) :
    client.queueAcquire broker request =
      (pollAlone broker client.object.topics client.waiting client.share client.calls).map
        client.ended := by
  have started : client.object.session.step (.acquire client.calls) = some client.waiting := by
    simp [Session.step, idle, waiting]
  rw [queueAcquire, lock, join]
  simp only [started, Option.bind_eq_bind, Option.bind_some]
  cases pollAlone broker client.object.topics client.waiting client.share client.calls <;> rfl

theorem queueHandle_of_free (handler : Handler) (entries : List AckEntry)
    (free : client.object.session.lock = none)
    (idle : client.object.session.calls client.calls = .idle) :
    client.queueHandle handler entries =
      (entriesAlone (client.object.session.hold client.calls (.working handler entries []))
        client.share client.calls entries.length).map client.ended := by
  have waiting : client.object.session.step (.handle client.calls handler entries) =
      some { client.object.session with
        calls := set client.object.session.calls client.calls
          (.entriesWaiting handler entries) } := by
    simp [Session.step, idle]
  have working : ({ client.object.session with
      calls := set client.object.session.calls client.calls (.entriesWaiting handler entries) } :
        Session).step (.lock client.calls) =
      some (client.object.session.hold client.calls (.working handler entries [])) := by
    simp [Session.step, free, Session.hold]
  simp only [queueHandle, waiting, working, Option.bind_eq_bind, Option.bind_some]
  cases entriesAlone (client.object.session.hold client.calls _) client.share client.calls _ <;> rfl

end Client

end KrabkaGateway.Queue
