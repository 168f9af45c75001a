import Mathlib.Algebra.Ring.Nat
import KrabkaGateway.Lib.Keyed
import KrabkaGateway.Lib.Text
import KrabkaGateway.Queue.Session

/-!
# The mock queue of the SDK

The in-memory backend that `mock://` clients of the Rust SDK use: `publish_mock` of
`messaging.rs` and the queue client of `stubs.rs` over the state of `client.rs`. The state is
three lists, of messages, sessions and leases. A lease is made when a message is first acquired
in a group, and looked up by the group and the coordinate of the message. Every call holds the
lock of the state from beginning to end, so the calls of all clients form one sequence.
-/

namespace KrabkaGateway.Sdk

open Lib
open Queue (Coordinate)

def supportedQueueLockDurationMs : Nat := 30000

/-- The largest `delivery_count`, which is an `i32`. -/
def maxDeliveryCount : Nat := 2 ^ 31 - 1

inductive KrabkaError where
  | invalidArgument (message : String)
  | notFound (message : String)
  deriving DecidableEq, Repr

/-! ## State -/

structure MockMessage where
  topic : String
  partition : Int32
  offset : Int64
  value : Bytes
  headers : List (String × Option Bytes)
  deriving DecidableEq, Repr

def MockMessage.delivery (message : MockMessage) : Coordinate where
  topic := message.topic
  partition := message.partition
  offset := message.offset

structure MockQueueSession where
  id : String
  topic : String
  group : String
  maxMessages : Nat
  deriving DecidableEq, Repr

inductive MockQueueDisposition where
  | available
  | acquired (sessionId : String)
  | accepted
  | rejected
  deriving DecidableEq, Repr

structure MockQueueMessageState where
  group : String
  delivery : Coordinate
  disposition : MockQueueDisposition
  deliveryCount : Nat
  deriving DecidableEq, Repr

def MockQueueMessageState.key (queueState : MockQueueMessageState) : String × Coordinate :=
  (queueState.group, queueState.delivery)

def MockQueueMessageState.acquire (sessionId : String) (queueState : MockQueueMessageState) :
    MockQueueMessageState :=
  { queueState with
    disposition := .acquired sessionId
    deliveryCount := min (queueState.deliveryCount + 1) maxDeliveryCount }

def MockQueueMessageState.settle (disposition : MockQueueDisposition)
    (queueState : MockQueueMessageState) : MockQueueMessageState :=
  { queueState with disposition }

structure MockState where
  messages : List MockMessage
  queueSessions : List MockQueueSession
  queueStates : List MockQueueMessageState
  deriving DecidableEq, Repr

def MockState.empty : MockState where
  messages := []
  queueSessions := []
  queueStates := []

/-! ## Publishing -/

structure RecordResult where
  partition : Int32
  offset : Int64
  deduplicated : Bool
  deriving DecidableEq, Repr

/-- Publish a message. A topic with more messages than an `i64` can count makes it panic. -/
def publishMock (state : MockState) (topic : String) (value : Bytes)
    (headers : List (String × Option Bytes)) :
    Option (Except KrabkaError (MockState × RecordResult)) :=
  if topic = "" then some (.error (.invalidArgument "topic is required"))
  else if topic = "__missing_topic" then some (.error (.notFound "topic not found"))
  else
    let count := (state.messages.filter fun message => message.topic = topic).length
    if count < 2 ^ 63 then
      let offset := Int64.ofNat count
      let message : MockMessage := { topic, partition := 0, offset, value, headers }
      some (.ok ({ state with messages := state.messages ++ [message] },
        { partition := 0, offset, deduplicated := false }))
    else none

/-! ## Acquiring -/

structure AcquireOptions where
  max : Nat
  lockDurationMs : Nat
  deriving DecidableEq, Repr

structure QueueMessage where
  topic : String
  partition : Int32
  offset : Int64
  value : Option Bytes
  headers : List (String × Option Bytes)
  deliveryCount : Nat
  deriving DecidableEq, Repr

def QueueMessage.delivery (message : QueueMessage) : Coordinate where
  topic := message.topic
  partition := message.partition
  offset := message.offset

structure QueueAcquireResult where
  sessionId : String
  messages : List QueueMessage
  deriving DecidableEq, Repr

def effectiveMax (requested : Nat) : Nat :=
  max 1 (min requested 500)

def sessionName (number : Nat) : String :=
  "mock-queue-session-" ++ toString number

def mockSessionId (sessions : List MockQueueSession) (requestedSessionId topic group : String)
    (requestedMax effectiveMax : Nat) : Except KrabkaError (List MockQueueSession × String) :=
  if requestedSessionId ≠ "" then
    match Keyed.find MockQueueSession.id sessions requestedSessionId with
    | none => .error (.invalidArgument "queue session expired; re-acquire")
    | some session =>
      if session.topic ≠ topic ∨ session.group ≠ group then
        .error (.invalidArgument "group_id and topics are fixed when a queue session is created")
      else if requestedMax ≠ 0 ∧ effectiveMax ≠ session.maxMessages then
        .error (.invalidArgument "max_messages is fixed when a queue session is created")
      else .ok (sessions, requestedSessionId)
  else
    let id := sessionName (sessions.length + 1)
    .ok (sessions ++ [{ id, topic, group, maxMessages := effectiveMax }], id)

def mockMessageIsAvailable (queueStates : List MockQueueMessageState) (group : String)
    (message : MockMessage) : Bool :=
  match Keyed.find MockQueueMessageState.key queueStates (group, message.delivery) with
  | none => true
  | some queueState => queueState.disposition = .available

def mockQueueStateMut (queueStates : List MockQueueMessageState) (group : String)
    (delivery : Coordinate) : List MockQueueMessageState :=
  Keyed.ensure MockQueueMessageState.key queueStates
    { group, delivery, disposition := .available, deliveryCount := 0 }

def queueMessageFromMock (message : MockMessage) (deliveryCount : Nat) : QueueMessage where
  topic := message.topic
  partition := message.partition
  offset := message.offset
  value := some message.value
  headers := message.headers
  deliveryCount := deliveryCount

def deliverOne (sessionId group : String) (queueStates : List MockQueueMessageState)
    (message : MockMessage) : List MockQueueMessageState × QueueMessage :=
  let key := (group, message.delivery)
  let marked := Keyed.modify MockQueueMessageState.key key (fun _ => true)
    (MockQueueMessageState.acquire sessionId)
    (mockQueueStateMut queueStates group message.delivery)
  let deliveryCount :=
    ((Keyed.find MockQueueMessageState.key marked key).map (·.deliveryCount)).getD 0
  (marked, queueMessageFromMock message deliveryCount)

def deliver (sessionId group : String) :
    List MockQueueMessageState → List MockMessage →
      List MockQueueMessageState × List QueueMessage
  | queueStates, [] => (queueStates, [])
  | queueStates, message :: rest =>
    let first := deliverOne sessionId group queueStates message
    let later := deliver sessionId group first.1 rest
    (later.1, first.2 :: later.2)

def MockState.available (state : MockState) (topic group : String) : List MockMessage :=
  (state.messages.filter fun message => message.topic = topic).filter
    (mockMessageIsAvailable state.queueStates group)

def acquireMock (state : MockState) (topic group : String) (options : AcquireOptions)
    (requestedSessionId : String) : Except KrabkaError (MockState × QueueAcquireResult) :=
  let maximum := effectiveMax options.max
  match mockSessionId state.queueSessions requestedSessionId topic group options.max maximum with
  | .error error => .error error
  | .ok (queueSessions, sessionId) =>
    let delivered := (state.available topic group).take maximum
    let marked := deliver sessionId group state.queueStates delivered
    .ok ({ state with queueSessions, queueStates := marked.1 },
      { sessionId, messages := marked.2 })

def acquireWithSession (state : MockState) (topic group : String) (options : AcquireOptions)
    (sessionId : String) : Except KrabkaError (MockState × QueueAcquireResult) :=
  if group = "" then .error (.invalidArgument "queue group is required")
  else if topic = "" then .error (.invalidArgument "queue topic is required")
  else if options.lockDurationMs ≠ supportedQueueLockDurationMs then
    .error (.invalidArgument
      "queue lock_duration_ms must be 30000; per-acquire lock durations are not supported")
  else acquireMock state topic group options sessionId

/-! ## Acknowledging and renewing -/

inductive QueueAckType where
  | accept
  | release
  | reject
  deriving DecidableEq, Repr

/-- The topic, partition and offset of a message. -/
abbrev QueueRenewEntry := Coordinate

structure QueueAckEntry where
  delivery : Coordinate
  ackType : QueueAckType
  deriving DecidableEq, Repr

structure QueueAckResult where
  entry : QueueRenewEntry
  error : Option KrabkaError
  deriving DecidableEq, Repr

def QueueAckType.disposition : QueueAckType → MockQueueDisposition
  | .accept => .accepted
  | .release => .available
  | .reject => .rejected

def queueResultError (entry : QueueRenewEntry) (message : String) : QueueAckResult where
  entry := entry
  error := some (.invalidArgument message)

def sessionExpired : KrabkaError :=
  .invalidArgument "queue session expired; re-acquire"

def isAcquired (queueStates : List MockQueueMessageState) (group sessionId : String)
    (delivery : Coordinate) : Bool :=
  queueStates.any fun queueState =>
    queueState.key = (group, delivery) ∧ queueState.disposition = .acquired sessionId

def acknowledgeOne (group sessionId : String) (queueStates : List MockQueueMessageState)
    (entry : QueueAckEntry) : List MockQueueMessageState × QueueAckResult :=
  if isAcquired queueStates group sessionId entry.delivery then
    (Keyed.modify MockQueueMessageState.key (group, entry.delivery)
      (fun queueState => queueState.disposition = .acquired sessionId)
      (MockQueueMessageState.settle entry.ackType.disposition) queueStates,
      { entry := entry.delivery, error := none })
  else (queueStates, queueResultError entry.delivery "queue message is not acquired")

def acknowledgeEntries (group sessionId : String) :
    List MockQueueMessageState → List QueueAckEntry →
      List MockQueueMessageState × List QueueAckResult
  | queueStates, [] => (queueStates, [])
  | queueStates, entry :: rest =>
    let first := acknowledgeOne group sessionId queueStates entry
    let later := acknowledgeEntries group sessionId first.1 rest
    (later.1, first.2 :: later.2)

def acknowledgeMock (state : MockState) (sessionId : String) (entries : List QueueAckEntry) :
    Except KrabkaError (MockState × List QueueAckResult) :=
  match Keyed.find MockQueueSession.id state.queueSessions sessionId with
  | none => .error sessionExpired
  | some session =>
    let answered := acknowledgeEntries session.group sessionId state.queueStates entries
    .ok ({ state with queueStates := answered.1 }, answered.2)

def renewMock (state : MockState) (sessionId : String) (entries : List QueueRenewEntry) :
    Except KrabkaError (List QueueAckResult) :=
  match Keyed.find MockQueueSession.id state.queueSessions sessionId with
  | none => .error sessionExpired
  | some session =>
    .ok (entries.map fun entry =>
      if isAcquired state.queueStates session.group sessionId entry then
        { entry, error := none }
      else queueResultError entry "queue message is not acquired")

/-! ## Sequences of calls -/

inductive Call where
  | publish (topic : String) (value : Bytes) (headers : List (String × Option Bytes))
  | acquire (topic group : String) (options : AcquireOptions) (sessionId : String)
  | acknowledge (sessionId : String) (entries : List QueueAckEntry)
  | renew (sessionId : String) (entries : List QueueRenewEntry)
  deriving DecidableEq, Repr

/-- The state behind an answer. Nothing is changed before a call fails. -/
def MockState.behind {Result : Type} (state : MockState) :
    Except KrabkaError (MockState × Result) → MockState
  | .ok (next, _) => next
  | .error _ => state

def MockState.step (state : MockState) : Call → Option MockState
  | .publish topic value headers => (publishMock state topic value headers).map state.behind
  | .acquire topic group options sessionId =>
    some (state.behind (acquireWithSession state topic group options sessionId))
  | .acknowledge sessionId entries => some (state.behind (acknowledgeMock state sessionId entries))
  | .renew _ _ => some state

/-! ## Leases

What the calls do is said about the lease of each message in each group: who has it and how
often it was handed out. A message that has no record yet is available. -/

structure Lease where
  disposition : MockQueueDisposition
  deliveryCount : Nat
  deriving DecidableEq, Repr

def MockQueueMessageState.lease (queueState : MockQueueMessageState) : Lease where
  disposition := queueState.disposition
  deliveryCount := queueState.deliveryCount

/-- The lease of a message that was never acquired. -/
def Lease.untouched : Lease where
  disposition := .available
  deliveryCount := 0

def Lease.take (lease : Lease) (sessionId : String) : Lease where
  disposition := .acquired sessionId
  deliveryCount := min (lease.deliveryCount + 1) maxDeliveryCount

def Lease.settle (lease : Lease) (disposition : MockQueueDisposition) : Lease :=
  { lease with disposition }

def leaseIn (queueStates : List MockQueueMessageState) (group : String) (delivery : Coordinate) :
    Lease :=
  ((Keyed.find MockQueueMessageState.key queueStates (group, delivery)).map
    MockQueueMessageState.lease).getD .untouched

def MockState.lease (state : MockState) (group : String) (delivery : Coordinate) : Lease :=
  leaseIn state.queueStates group delivery

/-- At most one record for each message in each group. -/
abbrev Kept (queueStates : List MockQueueMessageState) : Prop :=
  Keyed.Unique MockQueueMessageState.key queueStates

theorem key_acquire (sessionId : String) (queueState : MockQueueMessageState) :
    (queueState.acquire sessionId).key = queueState.key := rfl

theorem key_settle (disposition : MockQueueDisposition) (queueState : MockQueueMessageState) :
    (queueState.settle disposition).key = queueState.key := rfl

variable (sessionId group : String) {queueStates : List MockQueueMessageState}

theorem mockMessageIsAvailable_iff {message : MockMessage} :
    mockMessageIsAvailable queueStates group message ↔
      (leaseIn queueStates group message.delivery).disposition = .available := by
  unfold mockMessageIsAvailable leaseIn
  cases Keyed.find MockQueueMessageState.key queueStates (group, message.delivery) with
  | none => simp [Lease.untouched]
  | some queueState => simp [MockQueueMessageState.lease]

variable {delivery : Coordinate}

theorem isAcquired_iff (kept : Kept queueStates) :
    isAcquired queueStates group sessionId delivery ↔
      (leaseIn queueStates group delivery).disposition = .acquired sessionId := by
  simp only [isAcquired, List.any_eq_true, decide_eq_true_eq]
  constructor
  · rintro ⟨queueState, member, own, held⟩
    have found := kept.find_of_mem member
    rw [own] at found
    simp [leaseIn, found, MockQueueMessageState.lease, held]
  · intro held
    unfold leaseIn at held
    cases found : Keyed.find MockQueueMessageState.key queueStates (group, delivery) with
    | none => simp [found, Lease.untouched] at held
    | some queueState =>
      obtain ⟨member, own⟩ := Keyed.find_some found
      simp only [found, Option.map_some, Option.getD_some, MockQueueMessageState.lease] at held
      exact ⟨queueState, member, own, held⟩

/-! ### Handing out -/

theorem Kept.deliverOne (kept : Kept queueStates) (message : MockMessage) :
    Kept (deliverOne sessionId group queueStates message).1 :=
  Keyed.Unique.modify (Keyed.Unique.ensure kept _) (key_acquire sessionId)

theorem leaseIn_deliverOne (kept : Kept queueStates) (message : MockMessage) (other : String)
    (delivery : Coordinate) :
    leaseIn (deliverOne sessionId group queueStates message).1 other delivery =
      if other = group ∧ delivery = message.delivery then
        (leaseIn queueStates other delivery).take sessionId
      else leaseIn queueStates other delivery := by
  simp only [deliverOne, mockQueueStateMut, leaseIn]
  rw [Keyed.find_modify (Keyed.Unique.ensure kept _) (key_acquire sessionId),
    Keyed.find_ensure, Keyed.find_ensure]
  by_cases own : other = group ∧ delivery = message.delivery
  · obtain ⟨rfl, rfl⟩ := own
    cases Keyed.find MockQueueMessageState.key queueStates (other, message.delivery) <;>
      simp [MockQueueMessageState.key, MockQueueMessageState.lease, MockQueueMessageState.acquire,
        Lease.take, Lease.untouched]
  · have different : (other, delivery) ≠ (group, message.delivery) :=
      fun same => own ⟨congrArg Prod.fst same, congrArg Prod.snd same⟩
    rw [if_neg different, if_neg own]
    exact congrArg (fun found => (Option.map MockQueueMessageState.lease found).getD .untouched)
      (if_neg different)

theorem deliverOne_message (kept : Kept queueStates) (message : MockMessage) :
    (deliverOne sessionId group queueStates message).2 =
      queueMessageFromMock message
        ((leaseIn queueStates group message.delivery).take sessionId).deliveryCount := by
  have lease := leaseIn_deliverOne sessionId group kept message group message.delivery
  rw [if_pos ⟨rfl, rfl⟩] at lease
  rw [← lease]
  simp only [deliverOne, leaseIn]
  congr 1
  cases Keyed.find MockQueueMessageState.key _ _ <;> rfl

variable {other : String}

theorem outside_of_key {group : String} (different : group ≠ other)
    (queueState : MockQueueMessageState) (own : queueState.key = (group, delivery)) :
    decide (queueState.group = other) = false := by
  have named : queueState.group = group := congrArg Prod.fst own
  simpa [named] using different

theorem filter_deliverOne (message : MockMessage) (different : group ≠ other)
    (queueStates : List MockQueueMessageState) :
    (deliverOne sessionId group queueStates message).1.filter (fun kept => kept.group = other) =
      queueStates.filter fun kept => kept.group = other := by
  rw [deliverOne, mockQueueStateMut,
    Keyed.filter_modify (outside_of_key different)
      (fun queueState own => outside_of_key different (queueState.acquire sessionId) own),
    Keyed.filter_ensure (by simpa using different)]

theorem Kept.deliver (kept : Kept queueStates) (messages : List MockMessage) :
    Kept (deliver sessionId group queueStates messages).1 := by
  induction messages generalizing queueStates with
  | nil => exact kept
  | cons message messages ih =>
    exact ih (kept.deliverOne sessionId group message)

variable {messages : List MockMessage}

theorem leaseIn_deliver (kept : Kept queueStates)
    (distinct : (messages.map MockMessage.delivery).Nodup) (other : String)
    (delivery : Coordinate) :
    leaseIn (deliver sessionId group queueStates messages).1 other delivery =
      if other = group ∧ delivery ∈ messages.map MockMessage.delivery then
        (leaseIn queueStates other delivery).take sessionId
      else leaseIn queueStates other delivery := by
  induction messages generalizing queueStates with
  | nil => simp [deliver]
  | cons message messages ih =>
    obtain ⟨fresh, rest⟩ := List.nodup_cons.mp distinct
    rw [deliver, ih (kept.deliverOne sessionId group message) rest,
      leaseIn_deliverOne sessionId group kept]
    -- A message that was marked here is not among those that follow.
    by_cases here : delivery = message.delivery
    · subst here
      simp [fresh]
    · simp [here]

theorem deliver_messages (kept : Kept queueStates)
    (distinct : (messages.map MockMessage.delivery).Nodup) :
    (deliver sessionId group queueStates messages).2 =
      messages.map fun message => queueMessageFromMock message
        ((leaseIn queueStates group message.delivery).take sessionId).deliveryCount := by
  induction messages generalizing queueStates with
  | nil => rfl
  | cons message messages ih =>
    obtain ⟨fresh, rest⟩ := List.nodup_cons.mp distinct
    rw [deliver, List.map_cons, deliverOne_message sessionId group kept,
      ih (kept.deliverOne sessionId group message) rest]
    refine congrArg _ (List.map_congr_left fun later member => ?_)
    have other : later.delivery ≠ message.delivery :=
      fun same => fresh (same ▸ List.mem_map_of_mem member)
    rw [leaseIn_deliverOne sessionId group kept, if_neg fun own => other own.2]

theorem filter_deliver (messages : List MockMessage) (different : group ≠ other)
    (queueStates : List MockQueueMessageState) :
    (deliver sessionId group queueStates messages).1.filter (fun kept => kept.group = other) =
      queueStates.filter fun kept => kept.group = other := by
  induction messages generalizing queueStates with
  | nil => rfl
  | cons message messages ih =>
    rw [deliver, ih, filter_deliverOne sessionId group message different]

/-! ### Settling -/

theorem Kept.acknowledgeOne (kept : Kept queueStates) (entry : QueueAckEntry) :
    Kept (acknowledgeOne group sessionId queueStates entry).1 := by
  unfold Sdk.acknowledgeOne
  split
  · exact Keyed.Unique.modify kept (key_settle entry.ackType.disposition)
  · exact kept

theorem leaseIn_acknowledgeOne (kept : Kept queueStates) (entry : QueueAckEntry) (other : String)
    (delivery : Coordinate) :
    leaseIn (acknowledgeOne group sessionId queueStates entry).1 other delivery =
      if other = group ∧ delivery = entry.delivery ∧
          (leaseIn queueStates other delivery).disposition = .acquired sessionId then
        (leaseIn queueStates other delivery).settle entry.ackType.disposition
      else leaseIn queueStates other delivery := by
  unfold acknowledgeOne
  by_cases held : isAcquired queueStates group sessionId entry.delivery
  · rw [if_pos held]
    rw [isAcquired_iff sessionId group kept] at held
    dsimp only
    by_cases own : other = group ∧ delivery = entry.delivery
    · obtain ⟨rfl, rfl⟩ := own
      rw [if_pos ⟨rfl, rfl, held⟩]
      unfold leaseIn at held ⊢
      rw [Keyed.find_modify kept (key_settle _), if_pos rfl]
      cases found : Keyed.find MockQueueMessageState.key queueStates (other, entry.delivery) with
      | none => simp [found, Lease.untouched] at held
      | some queueState =>
        have acquired : queueState.disposition = .acquired sessionId := by
          simpa [found, MockQueueMessageState.lease] using held
        simp [acquired, MockQueueMessageState.lease, MockQueueMessageState.settle, Lease.settle]
    · have different : (other, delivery) ≠ (group, entry.delivery) :=
        fun same => own ⟨congrArg Prod.fst same, congrArg Prod.snd same⟩
      rw [if_neg fun same => own ⟨same.1, same.2.1⟩]
      unfold leaseIn
      rw [Keyed.find_modify kept (key_settle _), if_neg different]
  · rw [if_neg held, if_neg]
    rintro ⟨rfl, rfl, acquired⟩
    exact held ((isAcquired_iff sessionId other kept).mpr acquired)

def answerTo (entry : QueueRenewEntry) (held : Bool) : QueueAckResult where
  entry := entry
  error := if held then none else some (.invalidArgument "queue message is not acquired")

theorem answerTo_isAcquired (kept : Kept queueStates) (entry : QueueRenewEntry) :
    (if isAcquired queueStates group sessionId entry then { entry, error := none }
      else queueResultError entry "queue message is not acquired") =
      answerTo entry ((leaseIn queueStates group entry).disposition = .acquired sessionId) := by
  by_cases held : isAcquired queueStates group sessionId entry
  · have acquired := (isAcquired_iff sessionId group kept).mp held
    simp [held, acquired, answerTo]
  · have free := mt (isAcquired_iff sessionId group kept).mpr held
    simp [held, free, answerTo, queueResultError]

theorem acknowledgeOne_result (kept : Kept queueStates) (entry : QueueAckEntry) :
    (acknowledgeOne group sessionId queueStates entry).2 =
      answerTo entry.delivery
        ((leaseIn queueStates group entry.delivery).disposition = .acquired sessionId) := by
  rw [← answerTo_isAcquired sessionId group kept, acknowledgeOne]
  split <;> rfl

theorem filter_acknowledgeOne (entry : QueueAckEntry) (different : group ≠ other)
    (queueStates : List MockQueueMessageState) :
    (acknowledgeOne group sessionId queueStates entry).1.filter (fun kept => kept.group = other) =
      queueStates.filter fun kept => kept.group = other := by
  unfold acknowledgeOne
  split
  · exact Keyed.filter_modify (outside_of_key different)
      (fun queueState own =>
        outside_of_key different (queueState.settle entry.ackType.disposition) own) _
  · rfl

theorem Kept.acknowledgeEntries (kept : Kept queueStates) (entries : List QueueAckEntry) :
    Kept (acknowledgeEntries group sessionId queueStates entries).1 := by
  induction entries generalizing queueStates with
  | nil => exact kept
  | cons entry entries ih =>
    exact ih (kept.acknowledgeOne sessionId group entry)

def Lease.behind (lease : Lease) (sessionId : String) (entries : List QueueAckEntry)
    (delivery : Coordinate) : Lease :=
  if lease.disposition = .acquired sessionId then
    match entries.find? fun entry => entry.delivery = delivery with
    | some entry => lease.settle entry.ackType.disposition
    | none => lease
  else lease

theorem disposition_ne_acquired (ackType : QueueAckType) (sessionId : String) :
    ackType.disposition ≠ .acquired sessionId := by
  cases ackType <;> exact nofun

theorem leaseIn_acknowledgeEntries (kept : Kept queueStates) (entries : List QueueAckEntry)
    (other : String) (delivery : Coordinate) :
    leaseIn (acknowledgeEntries group sessionId queueStates entries).1 other delivery =
      if other = group then (leaseIn queueStates other delivery).behind sessionId entries delivery
      else leaseIn queueStates other delivery := by
  induction entries generalizing queueStates with
  | nil => simp [acknowledgeEntries, Lease.behind]
  | cons entry entries ih =>
    rw [acknowledgeEntries, ih (kept.acknowledgeOne sessionId group entry),
      leaseIn_acknowledgeOne sessionId group kept]
    by_cases own : other = group
    · subst own
      simp only [true_and, if_true]
      by_cases here : delivery = entry.delivery
      · subst here
        by_cases held :
            (leaseIn queueStates other entry.delivery).disposition = .acquired sessionId
        · simp [Lease.behind, held, Lease.settle, disposition_ne_acquired]
        · simp [Lease.behind, held]
      · simp [Lease.behind, here, Ne.symm here]
    · simp [own]

theorem filter_acknowledgeEntries (entries : List QueueAckEntry) (different : group ≠ other)
    (queueStates : List MockQueueMessageState) :
    (acknowledgeEntries group sessionId queueStates entries).1.filter
        (fun kept => kept.group = other) =
      queueStates.filter fun kept => kept.group = other := by
  induction entries generalizing queueStates with
  | nil => rfl
  | cons entry entries ih =>
    rw [acknowledgeEntries, ih, filter_acknowledgeOne sessionId group entry different]

theorem acknowledgeEntries_append (queueStates : List MockQueueMessageState)
    (entries others : List QueueAckEntry) :
    (acknowledgeEntries group sessionId queueStates (entries ++ others)).2 =
      (acknowledgeEntries group sessionId queueStates entries).2 ++
        (acknowledgeEntries group sessionId
          (acknowledgeEntries group sessionId queueStates entries).1 others).2 := by
  induction entries generalizing queueStates with
  | nil => rfl
  | cons entry entries ih =>
    simp only [List.cons_append, acknowledgeEntries, ih]

theorem length_acknowledgeEntries (queueStates : List MockQueueMessageState)
    (entries : List QueueAckEntry) :
    (acknowledgeEntries group sessionId queueStates entries).2.length = entries.length := by
  induction entries generalizing queueStates with
  | nil => rfl
  | cons entry entries ih =>
    simp only [acknowledgeEntries, List.length_cons, ih]

theorem acknowledgeEntries_result (kept : Kept queueStates) (before after : List QueueAckEntry)
    (entry : QueueAckEntry) :
    (acknowledgeEntries group sessionId queueStates (before ++ entry :: after)).2[before.length]? =
      some (answerTo entry.delivery
        ((leaseIn queueStates group entry.delivery).disposition = .acquired sessionId ∧
          entry.delivery ∉ before.map QueueAckEntry.delivery)) := by
  rw [acknowledgeEntries_append, List.getElem?_append_right
    (length_acknowledgeEntries sessionId group queueStates before).le,
    length_acknowledgeEntries, Nat.sub_self, acknowledgeEntries, List.getElem?_cons_zero,
    acknowledgeOne_result sessionId group (kept.acknowledgeEntries sessionId group before),
    leaseIn_acknowledgeEntries sessionId group kept, if_pos rfl]
  congr 3
  apply propext
  unfold Lease.behind
  by_cases held : (leaseIn queueStates group entry.delivery).disposition = .acquired sessionId
  · rw [if_pos held]
    simp only [held, true_and]
    cases found : before.find? fun other => other.delivery = entry.delivery with
    | none =>
      have missing : entry.delivery ∉ before.map QueueAckEntry.delivery := by
        simpa using found
      simp [held, missing]
    | some other =>
      have present : entry.delivery ∈ before.map QueueAckEntry.delivery :=
        List.mem_map.mpr ⟨other, List.mem_of_find?_eq_some found, by
          simpa using List.find?_some found⟩
      simp [Lease.settle, disposition_ne_acquired, present]
  · rw [if_neg held]
    simp [held]

end KrabkaGateway.Sdk
