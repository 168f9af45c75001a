import Mathlib.Data.List.Sigma
import Mathlib.Data.List.Sort
import KrabkaGateway.Lib.Groups
import KrabkaGateway.Lib.Joined
import KrabkaGateway.Lib.Lanes
import KrabkaGateway.Outbound.CloudEvents

/-!
# One polled batch

`deliver_batch` of `outbound.rs`: the records of a batch are grouped by partition and
sorted by offset, the partitions are delivered side by side, and each record is filtered,
rendered, sent and, if that fails, dead-lettered. What the codec, the target and the
dead-letter producer answer, and when, is up to the environment. A record is known by its
place in the batch.
-/

namespace KrabkaGateway.Outbound

open Lib Consume Webhook

/-! ## Requests -/

/-- What the requests of a subscription are made of. -/
structure Target extends CompiledSubscription where
  targetUrl : String
  signingSecret : Option Bytes
  headers : List (String × String)
  /-- HMAC-SHA256 of a body under a secret, in hexadecimal digits. -/
  signHmacHex : Bytes → Bytes → String

structure Request where
  url : String
  headers : HeaderMap
  body : Bytes
  deriving DecidableEq, Repr

def Target.request (target : Target) (record : Coordinate) (delivery : RenderedDelivery)
    (timestamp : Int) : Request where
  url := target.targetUrl
  headers :=
    [("X-Krabka-Event-Id", bytesOf (eventId record)),
      ("X-Krabka-Timestamp", bytesOf (toString timestamp))] ++ delivery.headers ++
    (target.signingSecret.map fun secret =>
      ("X-Krabka-Signature", bytesOf (target.signHmacHex secret delivery.body))).toList ++
    target.headers.map fun (name, value) => (name, bytesOf value)
  body := delivery.body

inductive HttpOutcome where
  | status (code : Nat)
  | failed
  deriving DecidableEq, Repr

def HttpOutcome.isSuccess : HttpOutcome → Bool
  | .status code => 200 ≤ code && code < 300
  | .failed => false

/-! ## Event ids -/

theorem toList_toString_of_nonneg {number : Int} (nonneg : 0 ≤ number) :
    (toString number).toList = Nat.toDigits 10 number.toNat := by
  obtain ⟨natural, rfl⟩ := Int.eq_ofNat_of_zero_le nonneg
  exact Nat.toList_repr

theorem toList_eventId {record : Coordinate} (partition : 0 ≤ record.key.2)
    (offset : 0 ≤ record.offset) :
    (eventId record).toList = record.key.1.toList ++ '-' :: Nat.toDigits 10 record.key.2.toNat ++
      '-' :: Nat.toDigits 10 record.offset.toNat := by
  simp only [eventId, String.toList_append, toList_toString_of_nonneg partition,
    toList_toString_of_nonneg offset, List.append_assoc]
  rfl

theorem dash_not_mem_toDigits (number : Nat) : '-' ∉ Nat.toDigits 10 number := by
  intro member
  have digit := Nat.isDigit_of_mem_toDigits (by decide) (by decide) member
  cases digit

theorem behind_last_dash {text other : List Char} {number another : Nat}
    (same : text ++ '-' :: Nat.toDigits 10 number = other ++ '-' :: Nat.toDigits 10 another) :
    text = other ∧ number = another := by
  -- Seen from the right, the digits are the longest front without a dash.
  have turned := congrArg List.reverse same
  simp only [List.reverse_append, List.reverse_cons, List.append_assoc, List.cons_append,
    List.nil_append] at turned
  obtain ⟨digits, texts⟩ := front_unique
    (mt List.mem_reverse.mp (dash_not_mem_toDigits number))
    (mt List.mem_reverse.mp (dash_not_mem_toDigits another))
    (ends_cons '-' text.reverse) (ends_cons '-' other.reverse) turned
  exact ⟨List.reverse_injective (List.cons.inj texts).2,
    toDigits_inj (List.reverse_injective digits)⟩

theorem eventId_inj {record other : Coordinate} (partition : 0 ≤ record.key.2)
    (offset : 0 ≤ record.offset) (otherPartition : 0 ≤ other.key.2)
    (otherOffset : 0 ≤ other.offset) (same : eventId record = eventId other) : record = other := by
  have lists := congrArg String.toList same
  rw [toList_eventId partition offset, toList_eventId otherPartition otherOffset] at lists
  obtain ⟨fronts, offsets⟩ := behind_last_dash lists
  obtain ⟨topics, partitions⟩ := behind_last_dash fronts
  obtain ⟨⟨topic, number⟩, place⟩ := record
  obtain ⟨⟨otherTopic, otherNumber⟩, otherPlace⟩ := other
  dsimp only at *
  obtain rfl : topic = otherTopic := String.toList_inj.mp topics
  obtain rfl : number = otherNumber := by omega
  obtain rfl : place = otherPlace := by omega
  rfl

/-- The id of a record is that of another one only if the topic, the partition and the offset are
the same; a receiver that has seen the id has seen the record. -/
theorem event_ids_are_unique {record : Coordinate} {history : List Coordinate}
    (partition : 0 ≤ record.key.2) (offset : 0 ≤ record.offset)
    (nonneg : ∀ other ∈ history, 0 ≤ other.key.2 ∧ 0 ≤ other.offset) :
    (∀ other ∈ history, eventId record = eventId other →
      record.key.1 = other.key.1 ∧ record.key.2 = other.key.2 ∧ record.offset = other.offset) ∧
    (eventId record ∈ history.map eventId → record ∈ history) := by
  have unique : ∀ other ∈ history, eventId record = eventId other → record = other := by
    intro other member
    exact eventId_inj partition offset (nonneg other member).1 (nonneg other member).2
  constructor
  · intro other member same
    obtain rfl := unique other member same
    exact ⟨rfl, rfl, rfl⟩
  · intro seen
    obtain ⟨other, member, same⟩ := List.mem_map.mp seen
    rw [unique other member same.symm]
    exact member

theorem dashed_topics_have_their_own_ids :
    eventId ⟨("orders-1", 2), 3⟩ ∉
      [eventId ⟨("orders", 1), 23⟩, eventId ⟨("orders-1-2", 3), 0⟩] := by
  intro seen
  have listed := (@event_ids_are_unique ⟨("orders-1", 2), 3⟩
    [⟨("orders", 1), 23⟩, ⟨("orders-1-2", 3), 0⟩] (by decide) (by decide) (by decide)).2 seen
  revert listed
  decide

/-! ## One record -/

structure ConsumerRecord where
  coordinate : Coordinate
  payload : Payload
  deriving DecidableEq, Repr

/-- A record and its place in the batch. -/
abbrev Job := ConsumerRecord × Nat

def Job.key (job : Job) : TopicPartition :=
  job.1.coordinate.key

def Job.offset (job : Job) : Int :=
  job.1.coordinate.offset

inductive DeliveryPhase where
  | fresh
  | rendering
  | posting (request : Request) (attempt : Nat)
  | sleeping (request : Request) (attempt : Nat)
  | deadLettering
  deriving DecidableEq, Repr

inductive DeliveryAction where
  | start
  | render (answer : Except CeError RenderedDelivery) (timestamp : Int)
  | answer (outcome : HttpOutcome)
  | wake
  | deadLetter (written : Bool)

inductive DeliveryEvent where
  | begun
  | rendered (answer : Except CeError RenderedDelivery)
  | posted (request : Request)
  | answered (outcome : HttpOutcome)
  /-- A call of `dead_letter`, with the record it writes if there is a topic for it. -/
  | deadLettered (sent : Option ProducerRecord)
  | dropped
  | stored (sent : ProducerRecord)
  | finished
  deriving DecidableEq

def Target.deadLetter (target : Target) (record : ConsumerRecord) : DeliveryEvent :=
  .deadLettered (target.deadLetterTopic.map fun topic =>
    deadLetterRecord topic record.coordinate record.payload)

/-- What becomes of a dead letter. A failed write is only logged. -/
def Target.deadLetterResult (target : Target) (record : ConsumerRecord) (written : Bool) :
    List DeliveryEvent :=
  match target.deadLetterTopic with
  | none => [.dropped]
  | some topic =>
    if written then [.stored (deadLetterRecord topic record.coordinate record.payload)] else []

/-- `deliver_one`, from one suspension point to the next. -/
def deliverOne (target : Target) :
    Lanes.Task Job DeliveryPhase DeliveryAction DeliveryEvent where
  begin := .fresh
  step job phase action :=
    let record := job.1
    match phase, action with
    | .fresh, .start =>
      if rejects target.toCompiledSubscription record.payload then
        some (none, [.begun, .finished])
      else some (some .rendering, [.begun])
    | .rendering, .render (.error error) _ =>
      some (some .deadLettering, [.rendered (.error error), target.deadLetter record])
    | .rendering, .render (.ok delivery) timestamp =>
      let request := target.request record.coordinate delivery timestamp
      some (some (.posting request 1), [.rendered (.ok delivery), .posted request])
    | .posting request attempt, .answer outcome =>
      if outcome.isSuccess then some (none, [.answered outcome, .finished])
      else if attempt ≥ target.maxAttempts then
        some (some .deadLettering, [.answered outcome, target.deadLetter record])
      else some (some (.sleeping request attempt), [.answered outcome])
    | .sleeping request attempt, .wake =>
      some (some (.posting request (attempt + 1)), [.posted request])
    | .deadLettering, .deadLetter written =>
      some (none, target.deadLetterResult record written ++ [.finished])
    | _, _ => none

/-! ## The batch -/

/-- The records of each partition in the order of their offsets. The order of the partitions does
not matter. -/
def byPart (batch : List ConsumerRecord) : List (List Job) :=
  (groupItems Job.key batch.zipIdx).map fun group =>
    group.2.insertionSort fun first second => first.offset ≤ second.offset

abbrev BatchState := Lanes.State Job DeliveryPhase DeliveryEvent

def deliverBatch (target : Target) (batch : List ConsumerRecord) : BatchState :=
  Lanes.State.start (deliverOne target) (byPart batch)

theorem byPart_perm (batch : List ConsumerRecord) : (byPart batch).flatten.Perm batch.zipIdx := by
  rw [byPart, ← List.flatMap_def]
  exact (List.Perm.flatMap_left _ fun _ _ => List.perm_insertionSort _ _).trans
    (groupItems_perm batch.zipIdx)

theorem nodup_byPart (batch : List ConsumerRecord) : (byPart batch).flatten.Nodup := by
  rw [(byPart_perm batch).nodup_iff]
  exact List.Nodup.of_map Prod.snd (List.nodup_zipIdx_map_snd batch)

variable {batch : List ConsumerRecord}

theorem sorted_byPart {queue : List Job} (member : queue ∈ byPart batch) :
    queue.Pairwise fun first second => first.offset ≤ second.offset := by
  obtain ⟨group, _, rfl⟩ := List.mem_map.mp member
  have total : Std.Total fun first second : Job => first.offset ≤ second.offset :=
    ⟨fun first second => Int.le_total first.offset second.offset⟩
  have transitive : IsTrans Job fun first second => first.offset ≤ second.offset :=
    ⟨fun _ _ _ => Int.le_trans⟩
  exact List.pairwise_insertionSort _ _

variable {record : ConsumerRecord}

theorem mem_zipIdx_of_getElem? {place : Nat} (found : batch[place]? = some record) :
    (record, place) ∈ batch.zipIdx :=
  List.mk_mem_zipIdx_iff_getElem?.mpr found

variable {job : Job}

/-- A record of the batch is in a queue, behind those of its partition with smaller offsets. -/
theorem behind_smaller_offsets {other : Job} (listed : job ∈ batch.zipIdx)
    (present : other ∈ batch.zipIdx) (same : other.key = job.key)
    (smaller : other.offset < job.offset) :
    ∃ queue ∈ byPart batch, ∃ ahead behind, queue = ahead ++ job :: behind ∧ other ∈ ahead := by
  obtain ⟨queue, found, inside⟩ := List.mem_flatten.mp ((byPart_perm batch).mem_iff.mpr listed)
  obtain ⟨group, member, rfl⟩ := List.mem_map.mp found
  have among := mem_group_of_key_eq member ((List.mem_insertionSort _).mp inside) present same
  obtain ⟨ahead, behind, split⟩ := List.append_of_mem inside
  refine ⟨_, found, ahead, behind, split, ?_⟩
  have sorted := sorted_byPart found
  have here : other ∈ group.2.insertionSort fun first second => first.offset ≤ second.offset :=
    (List.mem_insertionSort _).mpr among
  rw [split] at sorted here
  rcases List.mem_append.mp here with first | later
  · exact first
  · exfalso
    have above := (List.pairwise_append.mp sorted).2.1
    rcases List.mem_cons.mp later with rfl | last
    · exact lt_irrefl _ smaller
    · exact not_le.mpr smaller (List.rel_of_pairwise_cons above last)

/-! ## The account of one record -/

/-- The most attempts that a record gets. -/
def Target.limit (target : Target) : Nat :=
  max 1 target.maxAttempts

/-- Attempts that failed. -/
def rounds (request : Request) (failures : List HttpOutcome) : List DeliveryEvent :=
  failures.flatMap fun outcome => [.posted request, .answered outcome]

/-- The record was rendered and sent in vain some times. -/
structure Attempts (target : Target) (record : ConsumerRecord) (request : Request)
    (failures : List HttpOutcome) (events : List DeliveryEvent) : Prop where
  passes : rejects target.toCompiledSubscription record.payload = false
  rendered : ∃ delivery timestamp, request = target.request record.coordinate delivery timestamp ∧
    events = [.begun, .rendered (.ok delivery)] ++ rounds request failures
  failed : ∀ outcome ∈ failures, outcome.isSuccess = false

variable {target : Target}

theorem Attempts.another {request : Request} {failures : List HttpOutcome}
    {events : List DeliveryEvent} (attempts : Attempts target record request failures events)
    {outcome : HttpOutcome} (fails : outcome.isSuccess = false) :
    Attempts target record request (failures ++ [outcome])
      (events ++ [.posted request] ++ [.answered outcome]) where
  passes := attempts.passes
  rendered := by
    obtain ⟨delivery, timestamp, same, rfl⟩ := attempts.rendered
    exact ⟨delivery, timestamp, same, by simp [rounds]⟩
  failed := by
    intro other member
    rcases List.mem_append.mp member with old | new
    · exact attempts.failed other old
    · rw [List.mem_singleton.mp new]
      exact fails

/-- Nothing is left to try: the record was not rendered, or every attempt failed. -/
inductive GivenUp (target : Target) (record : ConsumerRecord) : List DeliveryEvent → Prop where
  | unrendered {error} (passes : rejects target.toCompiledSubscription record.payload = false) :
      GivenUp target record [.begun, .rendered (.error error)]
  | exhausted {request failures events} (attempts : Attempts target record request failures events)
      (all : failures.length = target.limit) : GivenUp target record events

inductive Delivered (target : Target) (record : ConsumerRecord) : List DeliveryEvent → Prop where
  | skipped (rejected : rejects target.toCompiledSubscription record.payload = true) :
      Delivered target record [.begun, .finished]
  | accepted {request failures events outcome}
      (attempts : Attempts target record request failures events)
      (few : failures.length < target.limit) (success : outcome.isSuccess = true) :
      Delivered target record (events ++ [.posted request, .answered outcome, .finished])
  | deadLettered {events written} (givenUp : GivenUp target record events) :
      Delivered target record
        (events ++ target.deadLetter record ::
          (target.deadLetterResult record written ++ [.finished]))

def Account (target : Target) (record : ConsumerRecord) :
    Option DeliveryPhase → List DeliveryEvent → Prop
  | some .fresh, events => events = []
  | some .rendering, events =>
    rejects target.toCompiledSubscription record.payload = false ∧ events = [.begun]
  | some (.posting request attempt), events => ∃ failures before,
      Attempts target record request failures before ∧ events = before ++ [.posted request] ∧
        failures.length + 1 = attempt ∧ attempt ≤ target.limit
  | some (.sleeping request attempt), events => ∃ failures,
      Attempts target record request failures events ∧ failures.length = attempt ∧
        attempt < target.maxAttempts
  | some .deadLettering, events => ∃ before,
      GivenUp target record before ∧ events = before ++ [target.deadLetter record]
  | none, events => Delivered target record events

variable {action : DeliveryAction}

theorem Account.step {phase : DeliveryPhase} {next : Option DeliveryPhase}
    {events shown : List DeliveryEvent} (account : Account target job.1 (some phase) events)
    (taken : (deliverOne target).step job phase action = some (next, shown)) :
    Account target job.1 next (events ++ shown) := by
  simp only [deliverOne] at taken
  split at taken
  · -- The filter.
    cases show events = [] from account
    split at taken
    · rename_i rejected
      cases taken
      exact .skipped rejected
    · rename_i passes
      cases taken
      exact ⟨Bool.eq_false_of_not_eq_true passes, rfl⟩
  · obtain ⟨passes, rfl⟩ := account
    cases taken
    exact ⟨_, .unrendered passes, rfl⟩
  · obtain ⟨passes, rfl⟩ := account
    cases taken
    refine ⟨[], _, ⟨passes, ⟨_, _, rfl, rfl⟩, by simp⟩, rfl, rfl, le_max_left _ _⟩
  · rename_i request attempt outcome
    obtain ⟨failures, before, attempts, rfl, count, bounded⟩ := account
    split at taken
    · rename_i success
      cases taken
      rw [List.append_assoc]
      exact .accepted attempts (by omega) success
    · rename_i fails
      have another := attempts.another (Bool.eq_false_of_not_eq_true fails)
      split at taken
      · rename_i last
        cases taken
        refine ⟨_, .exhausted another ?_, by simp⟩
        rw [List.length_append, List.length_singleton, count]
        exact Nat.le_antisymm bounded (max_le (count ▸ Nat.succ_pos _) last)
      · rename_i again
        cases taken
        exact ⟨_, another, by simpa using count, Nat.lt_of_not_le again⟩
  · obtain ⟨failures, attempts, count, less⟩ := account
    cases taken
    exact ⟨failures, _, attempts, rfl, by rw [count], Nat.le_trans less (le_max_right _ _)⟩
  · obtain ⟨before, givenUp, rfl⟩ := account
    cases taken
    rw [List.append_assoc]
    exact .deadLettered givenUp
  · cases taken

theorem account_of_seen {phase : Option DeliveryPhase} {events : List DeliveryEvent}
    (seen : Lanes.Seen (deliverOne target) job phase events) :
    Account target job.1 phase events := by
  induction seen with
  | begin => rfl
  | step before taken account => exact account.step taken

/-! ## The queue of a partition -/

/-- The stage that a phase is part of. A failed attempt and the wait for the next one are one step
there, and so are the filter and the rendering. -/
def DeliveryPhase.stage : DeliveryPhase → Stage
  | .fresh | .rendering => .fresh
  | .posting _ attempt => .posting attempt
  | .sleeping _ attempt => .posting (attempt + 1)
  | .deadLettering => .deadLettering

def laneQueue (lane : Lanes.Lane Job DeliveryPhase) : Queue where
  stage := lane.phase.stage
  records := lane.items.map fun job => job.1.coordinate

/-- What a queue leaves behind for these events, the last one first. -/
def effectOf (shown : List (Job × DeliveryEvent)) : Effect where
  delivered := (shown.filterMap fun
    | (job, .answered outcome) => if outcome.isSuccess then some job.1.coordinate else none
    | _ => none).reverse
  dropped := (shown.filterMap fun
    | (job, .dropped) => some job.1.coordinate
    | _ => none).reverse
  deadLetters := (shown.filterMap fun
    | (_, .stored sent) => some sent
    | _ => none).reverse

/-- The answers among these events. -/
def successes (shown : List (Job × DeliveryEvent)) : List Bool :=
  shown.filterMap fun
    | (_, .answered outcome) => some outcome.isSuccess
    | _ => none

def QueueAction.success? : QueueAction → Option Bool
  | .post success => some success
  | _ => none

/-- A step of a partition is at most one step of its queue, with the same answer and effect, where
the records are in the log and the rendering succeeds for the records that can be rendered. -/
theorem lane_refines_queue {log : Log} {lane next : Lanes.Lane Job DeliveryPhase}
    {shown : List (Job × DeliveryEvent)} {rest : List Job} {events : List DeliveryEvent}
    (items : lane.items = job :: rest) (logged : log job.key job.offset = some job.1.payload)
    (account : Account target job.1 (some lane.phase) events)
    (renders : ∀ answer timestamp, action = .render answer timestamp →
      answer.isOk = target.renders job.1.coordinate job.1.payload)
    (taken : lane.step (deliverOne target) action = some (next, shown)) :
    laneQueue next = laneQueue lane ∧ effectOf shown = {} ∧ successes shown = [] ∨
      ∃ queueAction, successes shown = queueAction.success?.toList ∧
        (laneQueue lane).step target.toCompiledSubscription log queueAction =
          some (laneQueue next, effectOf shown) := by
  obtain ⟨phase, listed⟩ := lane
  cases items
  obtain ⟨head, tail, after, own, whose, step, rfl, rfl⟩ := Lanes.Lane.step_eq_some taken
  cases whose
  have here : log job.1.coordinate.key job.1.coordinate.offset = some job.1.payload := logged
  simp only [deliverOne] at step
  split at step
  · split at step
    · rename_i rejected
      cases step
      refine Or.inr ⟨.start, rfl, ?_⟩
      simp [laneQueue, Queue.step, DeliveryPhase.stage, Queue.finish, deliverOne, here, rejected,
        effectOf]
    · cases step
      exact Or.inl ⟨rfl, rfl, rfl⟩
  · have unrendered := renders _ _ rfl
    cases step
    refine Or.inr ⟨.start, rfl, ?_⟩
    simp [laneQueue, Queue.step, DeliveryPhase.stage, here, account.1, ← unrendered, Except.isOk,
      Except.toBool, effectOf, Target.deadLetter]
  · have rendered := renders _ _ rfl
    cases step
    refine Or.inr ⟨.start, rfl, ?_⟩
    simp [laneQueue, Queue.step, DeliveryPhase.stage, here, account.1, ← rendered, Except.isOk,
      Except.toBool, effectOf]
  · split at step
    · rename_i success
      cases step
      refine Or.inr ⟨.post true, ?_, ?_⟩
      · simp [successes, success, QueueAction.success?]
      · simp [laneQueue, Queue.step, DeliveryPhase.stage, Queue.finish, deliverOne, here, effectOf,
          success]
    · rename_i fails
      split at step
      · rename_i last
        cases step
        refine Or.inr ⟨.post false, ?_, ?_⟩
        · simp [successes, fails, QueueAction.success?, Target.deadLetter]
        · simp [laneQueue, Queue.step, DeliveryPhase.stage, here, last, effectOf, fails,
            Target.deadLetter]
      · rename_i again
        cases step
        refine Or.inr ⟨.post false, ?_, ?_⟩
        · simp [successes, fails, QueueAction.success?]
        · simp [laneQueue, Queue.step, DeliveryPhase.stage, here, again, effectOf, fails]
  · cases step
    exact Or.inl ⟨rfl, rfl, rfl⟩
  · rename_i written
    cases step
    refine Or.inr ⟨.deadLetter written, ?_⟩
    -- Without a topic the record is dropped.
    cases topic : target.deadLetterTopic with
    | none =>
      simp [laneQueue, Queue.step, DeliveryPhase.stage, Queue.finish, deliverOne, here, topic,
        Target.deadLetterResult, effectOf, successes, QueueAction.success?]
    | some name =>
      cases written <;>
        simp [laneQueue, Queue.step, DeliveryPhase.stage, Queue.finish, deliverOne, here, topic,
          Target.deadLetterResult, effectOf, successes, QueueAction.success?]
  · cases step

/-! ## What is seen of one record -/

section Observed

variable (events : List DeliveryEvent)

def renderings : List (Except CeError RenderedDelivery) :=
  events.filterMap fun
    | .rendered answer => some answer
    | _ => none

def posts : List Request :=
  events.filterMap fun
    | .posted request => some request
    | _ => none

def answers : List HttpOutcome :=
  events.filterMap fun
    | .answered outcome => some outcome
    | _ => none

def deadLetterings : List (Option ProducerRecord) :=
  events.filterMap fun
    | .deadLettered sent => some sent
    | _ => none

end Observed

/-- The record was not rendered, or all attempts that it may get failed. -/
def Failed (target : Target) (events : List DeliveryEvent) : Prop :=
  (∃ error, .error error ∈ renderings events) ∨
    ((answers events).length = target.limit ∧
      ∀ outcome ∈ answers events, outcome.isSuccess = false)

/-- A record is processed once. If it passes the filter and is rendered, it is sent at least once,
always as the same request, until it is accepted or has been sent as often as it may be. It goes to
`dead_letter` once if it was not rendered or every attempt failed, and not at all otherwise. -/
structure Processed (target : Target) (record : ConsumerRecord) (events : List DeliveryEvent) :
    Prop where
  once : events.count .begun = 1 ∧ events.count .finished = 1
  rejected : rejects target.toCompiledSubscription record.payload = true →
    events = [.begun, .finished]
  rendered : rejects target.toCompiledSubscription record.payload = false →
    (renderings events).length = 1
  sent : ∀ delivery, .ok delivery ∈ renderings events →
    1 ≤ (posts events).length ∧ (posts events).length ≤ target.limit ∧
      (∃ timestamp, ∀ request ∈ posts events,
        request = target.request record.coordinate delivery timestamp) ∧
      (answers events).length = (posts events).length ∧
      (∀ outcome ∈ (answers events).dropLast, outcome.isSuccess = false) ∧
      ((answers events).length < target.limit →
        ∃ outcome ∈ (answers events).getLast?, outcome.isSuccess = true)
  deadLetter : rejects target.toCompiledSubscription record.payload = false →
    (Failed target events → (deadLetterings events).length = 1) ∧
      (¬ Failed target events → deadLetterings events = [])

section Append

variable (first second : List DeliveryEvent)

theorem renderings_append : renderings (first ++ second) = renderings first ++ renderings second :=
  List.filterMap_append

theorem posts_append : posts (first ++ second) = posts first ++ posts second :=
  List.filterMap_append

theorem answers_append : answers (first ++ second) = answers first ++ answers second :=
  List.filterMap_append

theorem deadLetterings_append :
    deadLetterings (first ++ second) = deadLetterings first ++ deadLetterings second :=
  List.filterMap_append

end Append

section Rounds

variable (request : Request) (failures : List HttpOutcome)

theorem renderings_rounds : renderings (rounds request failures) = [] := by
  induction failures with
  | nil => rfl
  | cons outcome failures ih => exact ih

theorem posts_rounds : posts (rounds request failures) = failures.map fun _ => request := by
  induction failures with
  | nil => rfl
  | cons outcome failures ih => exact congrArg _ ih

theorem answers_rounds : answers (rounds request failures) = failures := by
  induction failures with
  | nil => rfl
  | cons outcome failures ih => exact congrArg _ ih

theorem deadLetterings_rounds : deadLetterings (rounds request failures) = [] := by
  induction failures with
  | nil => rfl
  | cons outcome failures ih => exact ih

theorem count_rounds {event : DeliveryEvent} (other : ∀ request, event ≠ .posted request)
    (another : ∀ outcome, event ≠ .answered outcome) :
    (rounds request failures).count event = 0 := by
  refine List.count_eq_zero.mpr fun member => ?_
  obtain ⟨outcome, _, inside⟩ := List.mem_flatMap.mp member
  rcases List.mem_cons.mp inside with rfl | inside
  · exact other _ rfl
  · exact another _ (List.mem_singleton.mp inside)

end Rounds

section Processed

variable {target : Target} {record : ConsumerRecord} {request : Request}
  {failures : List HttpOutcome} {events : List DeliveryEvent}

theorem Attempts.observed (attempts : Attempts target record request failures events)
    (more : List DeliveryEvent) :
    ∃ delivery timestamp, request = target.request record.coordinate delivery timestamp ∧
      renderings (events ++ more) = .ok delivery :: renderings more ∧
      posts (events ++ more) = (failures.map fun _ => request) ++ posts more ∧
      answers (events ++ more) = failures ++ answers more ∧
      deadLetterings (events ++ more) = deadLetterings more ∧
      (events ++ more).count .begun = 1 + more.count .begun ∧
      (events ++ more).count .finished = more.count .finished := by
  obtain ⟨delivery, timestamp, same, rfl⟩ := attempts.rendered
  have begun : (rounds request failures).count .begun = 0 := count_rounds _ _ nofun nofun
  have finished : (rounds request failures).count .finished = 0 := count_rounds _ _ nofun nofun
  refine ⟨delivery, timestamp, same, ?_, ?_, ?_, ?_, ?_, ?_⟩
  · rw [renderings_append, renderings_append, renderings_rounds]
    rfl
  · rw [posts_append, posts_append, posts_rounds]
    rfl
  · rw [answers_append, answers_append, answers_rounds]
    rfl
  · rw [deadLetterings_append, deadLetterings_append, deadLetterings_rounds]
    rfl
  · rw [List.count_append, List.count_append, begun]
    rfl
  · rw [List.count_append, List.count_append, finished]
    exact Nat.zero_add _

theorem Attempts.processed (attempts : Attempts target record request failures events)
    {more : List DeliveryEvent} (last : List HttpOutcome) (quiet : renderings more = [])
    (sent : posts more = last.map fun _ => request) (answered : answers more = last)
    (counts : more.count .begun = 0 ∧ more.count .finished = 1)
    (some : 1 ≤ (failures ++ last).length) (few : (failures ++ last).length ≤ target.limit)
    (stops : ∀ outcome ∈ (failures ++ last).dropLast, outcome.isSuccess = false)
    (ends : (failures ++ last).length < target.limit →
      ∃ outcome ∈ (failures ++ last).getLast?, outcome.isSuccess = true)
    (dead : (deadLetterings more).length = 1 ∧ (failures ++ last).length = target.limit ∧
        (∀ outcome ∈ failures ++ last, outcome.isSuccess = false) ∨
      deadLetterings more = [] ∧ ∃ outcome ∈ failures ++ last, outcome.isSuccess = true) :
    Processed target record (events ++ more) := by
  obtain ⟨delivery, timestamp, same, rendered, requests, outcomes, letters, begun, finished⟩ :=
    attempts.observed more
  rw [quiet] at rendered
  rw [sent, ← List.map_append] at requests
  rw [answered] at outcomes
  have failed : Failed target (events ++ more) ↔ (failures ++ last).length = target.limit ∧
      ∀ outcome ∈ failures ++ last, outcome.isSuccess = false := by
    rw [Failed, rendered, outcomes]
    exact ⟨fun either => either.resolve_left (by simp), Or.inr⟩
  constructor
  · rw [begun, finished, counts.1, counts.2]
    exact ⟨rfl, rfl⟩
  · intro rejected
    cases attempts.passes.symm.trans rejected
  · intro _
    rw [rendered]
    rfl
  · intro other member
    rw [rendered] at member
    cases List.mem_singleton.mp member
    rw [requests, outcomes, List.length_map]
    refine ⟨some, few, ⟨timestamp, fun other inside => ?_⟩, rfl, stops, ends⟩
    obtain ⟨_, _, rfl⟩ := List.mem_map.mp inside
    exact same
  · intro _
    rw [failed, letters]
    rcases dead with ⟨letter, all⟩ | ⟨none, outcome, member, success⟩
    · exact ⟨fun _ => letter, fun unfailed => absurd all unfailed⟩
    · refine ⟨fun all => ?_, fun _ => none⟩
      cases success.symm.trans (all.2 outcome member)

theorem deadLettered_observed (target : Target) (record : ConsumerRecord) (written : Bool) :
    let events :=
      target.deadLetter record :: (target.deadLetterResult record written ++ [.finished])
    renderings events = [] ∧ posts events = [] ∧ answers events = [] ∧
      (deadLetterings events).length = 1 ∧ events.count .begun = 0 ∧
        events.count .finished = 1 := by
  unfold Target.deadLetterResult
  cases target.deadLetterTopic with
  | none => exact ⟨rfl, rfl, rfl, rfl, rfl, rfl⟩
  | some topic => cases written <;> exact ⟨rfl, rfl, rfl, rfl, rfl, rfl⟩

theorem Delivered.processed (delivered : Delivered target record events) :
    Processed target record events := by
  cases delivered with
  | skipped rejected =>
    refine ⟨by decide, fun _ => rfl, fun passes => ?_, fun _ => nofun, fun passes => ?_⟩
    · cases rejected.symm.trans passes
    · cases rejected.symm.trans passes
  | accepted attempts few success =>
    rename_i request failures events outcome
    refine attempts.processed [outcome] rfl rfl rfl (by simp) (by simp)
      (by simpa using Nat.succ_le_of_lt few) ?_
      (fun _ => ⟨outcome, List.getLast?_concat, success⟩) (Or.inr ⟨rfl, outcome, by simp, success⟩)
    rw [List.dropLast_concat]
    exact attempts.failed
  | deadLettered givenUp =>
    rename_i before written
    obtain ⟨rendered, sent, answered, letter, counts⟩ := deadLettered_observed target record written
    cases givenUp with
    | unrendered passes =>
      rename_i error
      have one : renderings (_ ++ target.deadLetter record :: _) = [.error error] :=
        (renderings_append [.begun, .rendered (.error error)] _).trans (congrArg _ rendered)
      refine ⟨?_, fun rejected => ?_, fun _ => congrArg List.length one, fun other => ?_,
        fun _ => ⟨fun _ => letter, fun succeeded => absurd (Or.inl ⟨error, ?_⟩) succeeded⟩⟩
      · rw [List.count_append, List.count_append, counts.1, counts.2]
        exact ⟨rfl, rfl⟩
      · cases passes.symm.trans rejected
      · rw [one]
        intro member
        cases List.mem_singleton.mp member
      · rw [one]
        exact List.mem_singleton_self _
    | exhausted attempts all =>
      rename_i request failures
      have whole : failures ++ [] = failures := List.append_nil failures
      refine attempts.processed [] rendered sent answered counts ?_ ?_ ?_ ?_ ?_
      · rw [whole, all]
        exact le_max_left _ _
      · rw [whole, all]
      · rw [whole]
        exact fun outcome member => attempts.failed outcome (List.dropLast_subset _ member)
      · rw [whole, all]
        exact fun less => absurd less (lt_irrefl _)
      · rw [whole]
        exact Or.inl ⟨letter, all, attempts.failed⟩

end Processed

/-! ## Every run -/

def stepsLeft (target : Target) : DeliveryPhase → Nat
  | .fresh => 2 * target.limit + 2
  | .rendering => 2 * (target.limit - 1) + 3
  | .posting _ attempt => 2 * (target.limit - attempt) + 2
  | .sleeping _ attempt => 2 * (target.limit - (attempt + 1)) + 3
  | .deadLettering => 1

def deliveryBudget (target : Target) : Lanes.Budget (deliverOne target) where
  left _ phase := stepsLeft target phase
  goesOn {job phase action next shown} taken := by
    have least : 1 ≤ target.limit := le_max_left _ _
    have enough : target.maxAttempts ≤ target.limit := le_max_right _ _
    simp only [deliverOne] at taken
    split at taken
    · split at taken <;> cases taken
      simp only [stepsLeft]
      omega
    · cases taken
      simp only [stepsLeft]
      omega
    · cases taken
      simp only [stepsLeft]
      omega
    · split at taken
      · cases taken
      · split at taken <;> cases taken <;> simp only [stepsLeft] <;> omega
    · cases taken
      simp only [stepsLeft]
      omega
    · cases taken
    · cases taken
  ends {job phase action shown} _ := by
    cases phase <;> exact Nat.succ_pos _

theorem deliveryBudget_queue (target : Target) (jobs : List Job) :
    (deliveryBudget target).queue jobs = jobs.length * (2 * target.limit + 2) := by
  have constant : (deliveryBudget target).queue jobs =
    (jobs.map fun _ => 2 * target.limit + 2).sum := rfl
  rw [constant, List.map_const', List.sum_replicate_nat]

theorem delivery_goes_on (target : Target) (job : Job) (phase : DeliveryPhase) :
    ∃ action, ((deliverOne target).step job phase action).isSome := by
  cases phase with
  | fresh =>
    refine ⟨.start, ?_⟩
    simp only [deliverOne]
    split <;> rfl
  | rendering => exact ⟨.render (.error .malformedJson) 0, rfl⟩
  | posting request attempt => exact ⟨.answer (.status 200), rfl⟩
  | sleeping request attempt => exact ⟨.wake, rfl⟩
  | deadLettering => exact ⟨.deadLetter true, rfl⟩

theorem finished_of_delivered {events : List DeliveryEvent}
    (delivered : Delivered target record events) : .finished ∈ events :=
  List.count_pos_iff.mp (delivered.processed.once.2 ▸ Nat.one_pos)

theorem finished_of_shownBy {trace : List (Job × DeliveryEvent)} {event : DeliveryEvent}
    (shown : event ∈ Lanes.shownBy job trace) : (job, event) ∈ trace := by
  obtain ⟨⟨other, same⟩, member, found⟩ := List.mem_filterMap.mp shown
  rw [Option.ite_none_right_eq_some] at found
  obtain ⟨rfl, found⟩ := found
  cases found
  exact member

/-- In every run of a batch each record is processed once, as often as it may be sent and
dead-lettered if that fails, after the records of its partition with smaller offsets; and every run
comes to its end. -/
theorem batch_delivered_in_order (target : Target) (batch : List ConsumerRecord)
    (actions : List (Nat × DeliveryAction)) {state : BatchState}
    (run : Run.exec (Lanes.State.step (deliverOne target)) (deliverBatch target batch) actions =
      some state) :
    (actions.length ≤ batch.length * (2 * target.limit + 2) ∧
      ((∀ action, state.step (deliverOne target) action = none) → state.done)) ∧
    (∀ (place earlier : Nat) record other, batch[place]? = some record →
      batch[earlier]? = some other → other.coordinate.key = record.coordinate.key →
      other.coordinate.offset < record.coordinate.offset →
      ∀ before event after, state.trace = before ++ ((record, place), event) :: after →
        ((other, earlier), .finished) ∈ before) ∧
    (state.done → ∀ (place : Nat) record, batch[place]? = some record →
      Processed target record (Lanes.shownBy (record, place) state.trace)) := by
  have kept := Lanes.kept_of_run (nodup_byPart batch) run
  refine ⟨⟨?_, ?_⟩, ?_, ?_⟩
  · refine ((deliveryBudget target).length_le_of_start run).trans (Nat.le_of_eq ?_)
    have places := (byPart_perm batch).length_eq
    rw [List.length_zipIdx] at places
    rw [deliveryBudget_queue, places]
  · intro stuck
    by_contra unfinished
    obtain ⟨action, enabled⟩ := Lanes.enabled_of_not_done (delivery_goes_on target) unfinished
    rw [stuck action] at enabled
    cases enabled
  · intro place earlier record other found present same smaller before event after trace
    obtain ⟨queue, listed, ahead, behind, split, member⟩ := behind_smaller_offsets
      (mem_zipIdx_of_getElem? found) (mem_zipIdx_of_getElem? present) same smaller
    have seen := kept.ordered before _ after trace queue listed ahead behind split _ member
    exact finished_of_shownBy (finished_of_delivered (account_of_seen seen))
  · intro done place record found
    obtain ⟨queue, listed, member⟩ := List.mem_flatten.mp
      ((byPart_perm batch).mem_iff.mpr (mem_zipIdx_of_getElem? found))
    exact Delivered.processed (account_of_seen (kept.seen_of_done done listed member))

def plainTarget : Target where
  filter := none
  renders := fun _ _ => true
  maxAttempts := 2
  deadLetterTopic := none
  targetUrl := "http://localhost/orders"
  signingSecret := none
  headers := []
  signHmacHex := fun _ _ => ""

def orderAt (offset : Int) : ConsumerRecord where
  coordinate := { key := ("orders", 0), offset }
  payload := { key := none, value := none, headers := [], timestamp := 0 }

/-- The order with the smaller offset is sent twice before the other one begins, which is not
rendered. -/
def retriedDelivery : List (Nat × DeliveryAction) :=
  [(0, .start), (0, .render (.ok ⟨[], []⟩) 7), (0, .answer (.status 500)), (0, .wake),
    (0, .answer (.status 200)), (0, .start), (0, .render (.error .malformedJson) 8),
    (0, .deadLetter true)]

theorem retried_order_is_processed :
    ∃ state, Run.exec (Lanes.State.step (deliverOne plainTarget))
        (deliverBatch plainTarget [orderAt 4, orderAt 3]) retriedDelivery = some state ∧
      (posts (Lanes.shownBy (orderAt 3, 1) state.trace)).length = 2 ∧
      Processed plainTarget (orderAt 3) (Lanes.shownBy (orderAt 3, 1) state.trace) ∧
      Processed plainTarget (orderAt 4) (Lanes.shownBy (orderAt 4, 0) state.trace) := by
  obtain ⟨state, run, lanes, twice⟩ : ∃ state, Run.exec (Lanes.State.step (deliverOne plainTarget))
      (deliverBatch plainTarget [orderAt 4, orderAt 3]) retriedDelivery = some state ∧
      state.lanes = [⟨.fresh, []⟩] ∧
      (posts (Lanes.shownBy (orderAt 3, 1) state.trace)).length = 2 := ⟨_, rfl, rfl, rfl⟩
  have done : state.done := by
    intro lane member
    rw [lanes] at member
    rw [List.mem_singleton.mp member]
  have processed := (batch_delivered_in_order plainTarget _ _ run).2.2 done
  exact ⟨state, run, twice, processed 1 _ rfl, processed 0 _ rfl⟩

/-! ## The batch in the group -/

/-- The rendering succeeds for the records that can be rendered. -/
def rendersAlike (target : Target) (state : BatchState) (action : Nat × DeliveryAction) : Bool :=
  match action.2, state.lanes[action.1]? with
  | .render answer _, some lane => lane.items.head?.all fun job =>
      answer.isOk == target.renders job.1.coordinate job.1.payload
  | _, _ => true

/-- The group after what a batch has done so far. -/
def State.afterBatch (group : State) (member : Nat) (state : BatchState) : State :=
  (group.setPhase member (.delivering (state.lanes.map laneQueue))).absorb (effectOf state.trace)

/-- Steps of the group's model do what the batch has done. -/
def Refines (target : Target) (log : Log) (group : State) (member : Nat) (state : BatchState) :
    Prop :=
  ∃ works : List (Nat × QueueAction),
    Run.exec (State.step target.toCompiledSubscription log) group
        (works.map fun work => .work member work.1 work.2) =
      some (group.afterBatch member state) ∧
    works.filterMap (fun work => work.2.success?) = successes state.trace

section Refines

variable {log : Log} {group : State} {member : Nat} {state next : BatchState}

theorem successes_append (first second : List (Job × DeliveryEvent)) :
    successes (first ++ second) = successes first ++ successes second :=
  List.filterMap_append

theorem State.afterBatch_append (lanes : List (Lanes.Lane Job DeliveryPhase))
    (trace shown : List (Job × DeliveryEvent)) :
    group.afterBatch member { lanes, trace := trace ++ shown } =
      (group.afterBatch member { lanes, trace }).absorb (effectOf shown) := by
  simp [afterBatch, absorb, effectOf]

theorem State.work_afterBatch {index : Nat} {lane after : Lanes.Lane Job DeliveryPhase}
    {queueAction : QueueAction} {shown : List (Job × DeliveryEvent)}
    (found : state.lanes[index]? = some lane)
    (stepped : (laneQueue lane).step target.toCompiledSubscription log queueAction =
      some (laneQueue after, effectOf shown)) :
    (group.afterBatch member state).step target.toCompiledSubscription log
        (.work member index queueAction) =
      some (group.afterBatch member
        { lanes := state.lanes.set index after, trace := state.trace ++ shown }) := by
  rw [afterBatch_append]
  simp [State.step, afterBatch, setPhase, absorb, found, stepped, List.map_set]

theorem Refines.step {action : Nat × DeliveryAction}
    (refines : Refines target log group member state)
    (kept : Lanes.Kept (deliverOne target) (byPart batch) state)
    (logged : ∀ record ∈ batch,
      log record.coordinate.key record.coordinate.offset = some record.payload)
    (alike : rendersAlike target state action)
    (taken : state.step (deliverOne target) action = some next) :
    Refines target log group member next := by
  obtain ⟨lane, after, shown, found, moved, rfl⟩ := Lanes.State.step_eq_some taken
  obtain ⟨job, rest, _, _, items, _⟩ := Lanes.Lane.step_eq_some moved
  obtain ⟨queue, finished, listed, follows⟩ := kept.queue_of found
  have inQueue : job ∈ queue := by simp [follows.split, items]
  have inBatch : job ∈ batch.zipIdx := (byPart_perm batch).mem_iff.mp
    (List.mem_flatten.mpr ⟨queue, List.mem_of_getElem? listed, inQueue⟩)
  have renders : ∀ answer timestamp, action.2 = .render answer timestamp →
      answer.isOk = target.renders job.1.coordinate job.1.payload := by
    intro answer timestamp isRender
    simpa [rendersAlike, isRender, found, items] using alike
  obtain ⟨works, run, answered⟩ := refines
  obtain ⟨same, nothing, none⟩ | ⟨queueAction, answer, stepped⟩ := lane_refines_queue items
    (logged job.1 (List.fst_mem_of_mem_zipIdx inBatch))
    (account_of_seen (follows.current job rest items)) renders moved
  · -- The queue sees nothing of this step.
    have lanes : (state.lanes.set action.1 after).map laneQueue = state.lanes.map laneQueue := by
      obtain ⟨bound, rfl⟩ := List.getElem?_eq_some_iff.mp found
      have there : action.1 < (state.lanes.map laneQueue).length := by simpa using bound
      rw [List.map_set, same]
      simpa using List.set_getElem_self there
    refine ⟨works, ?_, ?_⟩
    · rw [State.afterBatch_append, nothing, State.afterBatch, lanes]
      exact run
    · rw [answered, successes_append, none, List.append_nil]
  · refine ⟨works ++ [(action.1, queueAction)], ?_, ?_⟩
    · rw [List.map_append]
      refine Run.exec_append_eq_some.mpr ⟨_, run, Run.exec_cons_eq_some.mpr ⟨_, ?_, rfl⟩⟩
      exact State.work_afterBatch found stepped
    · rw [List.filterMap_append, answered, successes_append, answer]
      cases queueAction <;> rfl

end Refines

/-- A batch does in the group what the group's model says: its member delivers the same queues, with
the answers that the batch got, and leaves the group with the records that were delivered, dropped
and dead-lettered; and once the batch is done, the member goes on to commit it. -/
theorem batch_refines_group (target : Target) (log : Log) (batch : List ConsumerRecord)
    (logged : ∀ record ∈ batch,
      log record.coordinate.key record.coordinate.offset = some record.payload)
    {actions : List (Nat × DeliveryAction)} {state : BatchState}
    (along : Run.Along (Lanes.State.step (deliverOne target))
      (fun state action => rendersAlike target state action) (deliverBatch target batch) actions)
    (run : Run.exec (Lanes.State.step (deliverOne target)) (deliverBatch target batch) actions =
      some state) (group : State) (member : Nat)
    (delivering : (group.members member).phase =
      .delivering ((deliverBatch target batch).lanes.map laneQueue)) :
    Refines target log group member state ∧
      (state.done → (group.afterBatch member state).step target.toCompiledSubscription log
        (.batchDone member) =
          some ((group.afterBatch member state).setPhase member .committing)) := by
  constructor
  · have start : Refines target log group member (deliverBatch target batch) := by
      refine ⟨[], congrArg some ?_, rfl⟩
      rw [State.afterBatch, ← delivering]
      have same : set group.members member (group.members member) = group.members := by
        funext other
        by_cases own : other = member <;> simp [own]
      simp [State.setPhase, State.absorb, same, effectOf, deliverBatch, Lanes.State.start]
    exact (Run.exec_preserves
      (fun state => Lanes.Kept (deliverOne target) (byPart batch) state ∧
        Refines target log group member state)
      (fun _ _ _ held alike taken =>
        ⟨held.1.step (Lanes.apart_of_nodup (nodup_byPart batch)) taken,
          held.2.step held.1 logged alike taken⟩)
      ⟨Lanes.kept_start _, start⟩ along run).2
  · intro done
    have empty : (state.lanes.map laneQueue).all fun queue => queue.records.isEmpty := by
      simp only [List.all_map, List.all_eq_true]
      intro lane member
      simp [laneQueue, done lane member]
    simp [State.step, State.afterBatch, State.setPhase, State.absorb, empty]

def orderLog : Log := fun _ _ => some { key := none, value := none, headers := [], timestamp := 0 }

/-- Only the order at offset 3 can be rendered. -/
def pickyTarget : Target :=
  { plainTarget with
    renders := fun record _ => decide (record.offset = 3)
    deadLetterTopic := some "dead" }

def orderGroup : State :=
  (State.start fun _ => 3).setPhase 0
    (.delivering ((deliverBatch pickyTarget [orderAt 4, orderAt 3]).lanes.map laneQueue))

theorem retried_order_is_delivered_in_group :
    ∃ state, Run.exec (Lanes.State.step (deliverOne pickyTarget))
        (deliverBatch pickyTarget [orderAt 4, orderAt 3]) retriedDelivery = some state ∧
      Refines pickyTarget orderLog orderGroup 0 state ∧
      (orderGroup.afterBatch 0 state).delivered = [(orderAt 3).coordinate] ∧
      (orderGroup.afterBatch 0 state).deadLetters =
        [deadLetterRecord "dead" (orderAt 4).coordinate (orderAt 4).payload] := by
  obtain ⟨state, run, delivered, letters⟩ :
      ∃ state, Run.exec (Lanes.State.step (deliverOne pickyTarget))
        (deliverBatch pickyTarget [orderAt 4, orderAt 3]) retriedDelivery = some state ∧
      (orderGroup.afterBatch 0 state).delivered = [(orderAt 3).coordinate] ∧
      (orderGroup.afterBatch 0 state).deadLetters =
        [deadLetterRecord "dead" (orderAt 4).coordinate (orderAt 4).payload] := ⟨_, rfl, rfl, rfl⟩
  refine ⟨state, run, (batch_refines_group pickyTarget orderLog [orderAt 4, orderAt 3] ?_ ?_ run
    orderGroup 0 rfl).1, delivered, letters⟩
  · simp [orderAt, orderLog]
  · decide

end KrabkaGateway.Outbound
