import KrabkaGateway.Consume.Group
import KrabkaGateway.Lib.Run

/-!
# Outbound webhooks

The delivery loop of `outbound.rs` for the members of one subscription's consumer
group. A member polls a batch, delivers its partitions side by side and each
partition in offset order, and commits its position once the whole batch is done.
The native client may commit a member's position by itself. `delivered` and
`dropped` are history; `deadLetters` is what the dead-letter topic got.
-/

namespace KrabkaGateway.Outbound

open Lib Consume

/-- What a record carries besides its coordinates. -/
structure Payload where
  key : Option Bytes
  value : Option Bytes
  headers : List (String × Option Bytes)
  timestamp : Int
  deriving DecidableEq, Repr

/-- `filter` is the compiled JSONPath: what it selects from a body, each element as whether it is
neither null nor false. `renders` says whether the record has a form the target can be sent. -/
structure CompiledSubscription where
  filter : Option (Bytes → Option (List Bool))
  renders : Coordinate → Payload → Bool
  maxAttempts : Nat
  deadLetterTopic : Option String

/-- The visible records of the source topics. -/
abbrev Log := TopicPartition → Int → Option Payload

def passesFilter (query : Bytes → Option (List Bool)) (payload : Payload) : Bool :=
  match payload.value with
  | none => false
  | some body =>
    match query body with
    | none | some [] => false
    | some selected => selected.all id

def rejects (subscription : CompiledSubscription) (payload : Payload) : Bool :=
  subscription.filter.any fun query => !passesFilter query payload

def eventId (record : Coordinate) : String :=
  record.key.1 ++ "-" ++ toString record.key.2 ++ "-" ++ toString record.offset

def deadLetterRecord (topic : String) (record : Coordinate) (payload : Payload) :
    ProducerRecord where
  topic := topic
  partition := none
  key := payload.key
  value := payload.value
  headers := [("x-krabka-dlq-source", some (eventId record).toUTF8.data.toList),
    ("x-krabka-dlq-reason", some "delivery exhausted".toUTF8.data.toList)]
  timestampMs := none

/-! ## One partition of a batch -/

/-- Where the delivery of the first record of a queue stands. -/
inductive Stage where
  | fresh
  | posting (attempt : Nat)
  | deadLettering
  deriving DecidableEq, Repr

/-- The records of one partition that are still to be delivered. -/
structure Queue where
  stage : Stage
  records : List Coordinate
  deriving DecidableEq, Repr

/-- What the delivery of a record waits for: its first step, an HTTP answer, the dead-letter
producer. -/
inductive QueueAction where
  | start
  | post (success : Bool)
  | deadLetter (written : Bool)
  deriving DecidableEq, Repr

/-- What one step leaves behind besides the queue. -/
structure Effect where
  delivered : List Coordinate := []
  dropped : List Coordinate := []
  deadLetters : List ProducerRecord := []

def Queue.finish (queue : Queue) : Queue :=
  { stage := .fresh, records := queue.records.tail }

/-- `deliver_one`, from one suspension point to the next. A failed write to the dead-letter topic
is only logged. -/
def Queue.step (subscription : CompiledSubscription) (log : Log) (queue : Queue)
    (action : QueueAction) : Option (Queue × Effect) :=
  match queue.records with
  | [] => none
  | record :: _ =>
    match log record.key record.offset with
    | none => none
    | some payload =>
      match queue.stage, action with
      | .fresh, .start =>
        if rejects subscription payload then some (queue.finish, {})
        else if subscription.renders record payload then
          some ({ queue with stage := .posting 1 }, {})
        else some ({ queue with stage := .deadLettering }, {})
      | .posting attempt, .post success =>
        if success then some (queue.finish, { delivered := [record] })
        else if attempt ≥ subscription.maxAttempts then
          some ({ queue with stage := .deadLettering }, {})
        else some ({ queue with stage := .posting (attempt + 1) }, {})
      | .deadLettering, .deadLetter written =>
        match subscription.deadLetterTopic with
        | none => some (queue.finish, { dropped := [record] })
        | some topic =>
          if written then
            some (queue.finish, {
              deadLetters := [deadLetterRecord topic record payload] })
          else some (queue.finish, {})
      | _, _ => none

/-! ## The group -/

inductive Phase where
  | select
  | delivering (queues : List Queue)
  | committing
  | closed

def Phase.isDelivering : Phase → Bool
  | .delivering _ => true
  | _ => false

structure Member where
  phase : Phase
  position : TopicPartition → Int

structure State where
  owner : TopicPartition → Option Nat
  committed : TopicPartition → Int
  members : Nat → Member
  delivered : List Coordinate
  dropped : List Coordinate
  deadLetters : List ProducerRecord

inductive Action where
  | assign (key : TopicPartition) (member : Nat)
  | revoke (key : TopicPartition)
  | poll (member : Nat) (keys : List TopicPartition) (next : TopicPartition → Int)
  | work (member : Nat) (queue : Nat) (action : QueueAction)
  | batchDone (member : Nat)
  | commit (member : Nat)
  | commitFailed (member : Nat) (applied : TopicPartition → Bool)
  | nativeCommit (member : Nat)
  /-- The loop ends, after a shutdown or a failed poll. -/
  | stop (member : Nat)
  /-- The process dies; a new one takes its place. -/
  | crash (member : Nat)

namespace State

def start (committed : TopicPartition → Int) : State where
  owner := fun _ => none
  committed := committed
  members := fun _ => { phase := .select, position := committed }
  delivered := []
  dropped := []
  deadLetters := []

def commitPositions (state : State) (member : Nat) (applied : TopicPartition → Bool) : State :=
  { state with
    committed := fun key =>
      if state.owner key = some member ∧ applied key then (state.members member).position key
      else state.committed key }

def setPhase (state : State) (member : Nat) (phase : Phase) : State :=
  { state with members := set state.members member { state.members member with phase } }

def absorb (state : State) (effect : Effect) : State :=
  { state with
    delivered := effect.delivered ++ state.delivered
    dropped := effect.dropped ++ state.dropped
    deadLetters := effect.deadLetters ++ state.deadLetters }

variable (subscription : CompiledSubscription) (log : Log)

def visible (key : TopicPartition) (offset : Int) : Bool :=
  (log key offset).isSome

/-- The batch of a poll, by partition. -/
def queues (state : State) (member : Nat) (keys : List TopicPartition)
    (next : TopicPartition → Int) : List Queue :=
  keys.map fun key =>
    { stage := .fresh
      records := Group.fetch (visible log) key ((state.members member).position key) (next key) }

def polled (state : State) (member : Nat) (keys : List TopicPartition)
    (next : TopicPartition → Int) : State :=
  let queues := state.queues log member keys next
  { state with
    members := set state.members member {
      position := fun key =>
        if keys.contains key then next key else (state.members member).position key
      phase :=
        if queues.all fun queue => queue.records.isEmpty then .select else .delivering queues } }

def step (state : State) : Action → Option State
  | .assign key member =>
    if state.owner key = none then
      some { state with
        owner := set state.owner key (some member)
        members := set state.members member {
          state.members member with
          position := set (state.members member).position key (state.committed key) } }
    else none
  | .revoke key => some { state with owner := set state.owner key none }
  | .poll member keys next =>
    match (state.members member).phase with
    | .select =>
      if keys.Nodup ∧ ∀ key ∈ keys, state.owner key = some member ∧
          (state.members member).position key ≤ next key then
        some (state.polled log member keys next)
      else none
    | _ => none
  | .work member index action =>
    match (state.members member).phase with
    | .delivering queues => do
        let queue ← queues[index]?
        let (after, effect) ← queue.step subscription log action
        return (state.setPhase member (.delivering (queues.set index after))).absorb effect
    | _ => none
  | .batchDone member =>
    match (state.members member).phase with
    | .delivering queues =>
      if queues.all fun queue => queue.records.isEmpty then
        some (state.setPhase member .committing)
      else none
    | _ => none
  | .commit member =>
    match (state.members member).phase with
    | .committing => some ((state.commitPositions member fun _ => true).setPhase member .select)
    | _ => none
  | .commitFailed member applied =>
    match (state.members member).phase with
    | .committing => some ((state.commitPositions member applied).setPhase member .select)
    | _ => none
  | .nativeCommit member => some (state.commitPositions member fun _ => true)
  | .stop member =>
    match (state.members member).phase with
    | .select => some (state.setPhase member .closed)
    | _ => none
  | .crash member =>
    some { state with
      owner := fun key => if state.owner key = some member then none else state.owner key
      members := set state.members member { phase := .select, position := state.committed } }

/-! ## What a commit may pass -/

/-- A record got a 2xx, is rejected by the filter, was written to the dead-letter topic, or was
dropped for want of one. -/
def Settled (state : State) (record : Coordinate) : Prop :=
  record ∈ state.delivered ∨
  (log record.key record.offset).any (rejects subscription) = true ∨
  (subscription.deadLetterTopic.any fun topic =>
    (log record.key record.offset).any fun payload =>
      decide (deadLetterRecord topic record payload ∈ state.deadLetters)) = true ∨
  subscription.deadLetterTopic = none ∧ record ∈ state.dropped

instance (state : State) (record : Coordinate) :
    Decidable (state.Settled subscription log record) :=
  inferInstanceAs (Decidable (_ ∨ _ ∨ _ ∨ _))

structure Before (initial bound : TopicPartition → Int) (record : Coordinate) : Prop where
  lower : initial record.key ≤ record.offset
  upper : record.offset < bound record.key
  readable : 0 ≤ record.offset ∧ visible log record.key record.offset = true

end State

def Phase.waiting : Phase → List Coordinate
  | .delivering queues => queues.flatMap Queue.records
  | _ => []

namespace State

variable (subscription : CompiledSubscription) (log : Log)

structure Covered (initial : TopicPartition → Int) (state : State) : Prop where
  committed : ∀ record, Before log initial state.committed record →
    state.Settled subscription log record
  owned : ∀ member record, state.owner record.key = some member →
    Before log initial (state.members member).position record →
    state.Settled subscription log record ∨ record ∈ (state.members member).phase.waiting

/-- No write to the dead-letter topic fails, and the native client commits by itself only while
the member delivers no batch. -/
def careful (state : State) : Action → Bool
  | .work _ _ (.deadLetter written) => written || subscription.deadLetterTopic.isNone
  | .nativeCommit member => !(state.members member).phase.isDelivering
  | _ => true

variable {subscription log}

theorem covered_start (initial : TopicPartition → Int) :
    Covered subscription log initial (start initial) where
  committed record before := absurd before.lower (not_le.mpr before.upper)
  owned _ _ owner := by simp [start] at owner

variable {record : Coordinate}

theorem Settled.absorb {state : State} (settled : state.Settled subscription log record)
    (effect : Effect) : (state.absorb effect).Settled subscription log record := by
  obtain delivered | rejected | written | ⟨noTopic, dropped⟩ := settled
  · exact .inl (List.mem_append_right _ delivered)
  · exact .inr (.inl rejected)
  · refine .inr (.inr (.inl ?_))
    simp only [Option.any_eq_true, decide_eq_true_eq] at written ⊢
    obtain ⟨topic, configured, payload, found, listed⟩ := written
    exact ⟨topic, configured, payload, found, List.mem_append_right _ listed⟩
  · exact .inr (.inr (.inr ⟨noTopic, List.mem_append_right _ dropped⟩))

theorem waiting_nil_of_not_delivering {phase : Phase} (idle : phase.isDelivering = false) :
    phase.waiting = [] := by
  cases phase with
  | delivering => contradiction
  | select | committing | closed => rfl

theorem settled_of_queue_step {queue after : Queue} {action : QueueAction} {effect : Effect}
    (state : State) (taken : queue.step subscription log action = some (after, effect))
    (kept : ∀ written, action = .deadLetter written →
      (written || subscription.deadLetterTopic.isNone) = true) (waits : record ∈ queue.records) :
    record ∈ after.records ∨ (state.absorb effect).Settled subscription log record := by
  -- The head of the queue is the only record a step can take out.
  have finished : ∀ (first : Coordinate) rest, queue.records = first :: rest →
      (state.absorb effect).Settled subscription log first →
      record ∈ queue.finish.records ∨ (state.absorb effect).Settled subscription log record := by
    intro first rest shape settled
    rw [shape] at waits
    obtain rfl | later := List.mem_cons.mp waits
    · exact .inr settled
    · left
      simpa [Queue.finish, shape] using later
  unfold Queue.step at taken
  split at taken
  · contradiction
  rename_i first rest shape
  split at taken
  · contradiction
  rename_i payload found
  split at taken
  · -- `fresh`, `start`
    split at taken
    · rename_i rejected
      cases taken
      exact finished first rest shape (.inr (.inl (by simp [found, rejected])))
    · split at taken <;>
      · cases taken
        exact .inl waits
  · -- `posting`, `post`
    split at taken
    · cases taken
      exact finished first rest shape (.inl (by simp [State.absorb]))
    · split at taken <;>
      · cases taken
        exact .inl waits
  · -- `deadLettering`, `deadLetter`
    rename_i written stage
    have certain := kept written rfl
    split at taken
    · rename_i noTopic
      cases taken
      exact finished first rest shape (.inr (.inr (.inr ⟨noTopic, by simp [State.absorb]⟩)))
    · rename_i topic configured
      simp only [configured, Option.isNone_some, Bool.or_false] at certain
      simp only [certain, if_true] at taken
      cases taken
      refine finished first rest shape (.inr (.inr (.inl ?_)))
      simp [configured, found, State.absorb]
  · contradiction

section Steps

variable {initial : TopicPartition → Int} {state : State}

variable (covered : Covered subscription log initial state)
include covered

theorem Covered.disown {owner : TopicPartition → Option Nat}
    (fewer : ∀ key member, owner key = some member → state.owner key = some member) :
    Covered subscription log initial { state with owner } where
  committed := covered.committed
  owned member record owned := covered.owned member record (fewer _ _ owned)

theorem Covered.absorb (effect : Effect) :
    Covered subscription log initial (state.absorb effect) where
  committed record before := (covered.committed record before).absorb effect
  owned member record owner before :=
    (covered.owned member record owner before).imp_left fun settled => settled.absorb effect

variable {member : Nat}

/-- One member changes, and no other member gets a partition. -/
theorem Covered.replace {owner : TopicPartition → Option Nat} {fresh : Member}
    (others : ∀ key other, other ≠ member → owner key = some other → state.owner key = some other)
    (own : ∀ record, owner record.key = some member → Before log initial fresh.position record →
      state.Settled subscription log record ∨ record ∈ fresh.phase.waiting) :
    Covered subscription log initial
      { state with owner, members := set state.members member fresh } where
  committed := covered.committed
  owned other record owned before := by
    dsimp only at before owned ⊢
    by_cases same : other = member
    · subst same
      rw [set_self] at before ⊢
      exact own record owned before
    · rw [set_ne _ _ same] at before ⊢
      exact covered.owned other record (others _ other same owned) before

theorem Covered.assign (key : TopicPartition) (member : Nat) :
    Covered subscription log initial
      { state with
        owner := set state.owner key (some member)
        members := set state.members member {
          state.members member with
          position := set (state.members member).position key (state.committed key) } } := by
  refine covered.replace (fun other number different owner => ?_) fun record owner before => ?_
  · by_cases here : other = key
    · subst here
      exact absurd (Option.some.inj ((set_self _ _ _).symm.trans owner)).symm different
    · rwa [set_ne _ _ here] at owner
  · have upper := before.upper
    dsimp only at upper ⊢
    by_cases here : record.key = key
    · -- The partition resumes at its committed offset.
      subst here
      rw [set_self] at upper
      exact .inl (covered.committed record { before with upper })
    · rw [set_ne _ _ here] at upper owner
      exact covered.owned member record owner { before with upper }

theorem Covered.settled (idle : (state.members member).phase.waiting = []) {record : Coordinate}
    (owner : state.owner record.key = some member)
    (before : Before log initial (state.members member).position record) :
    state.Settled subscription log record := by
  obtain settled | waits := covered.owned member record owner before
  · exact settled
  · simp [idle] at waits

theorem Covered.setPhase (idle : (state.members member).phase.waiting = []) (phase : Phase) :
    Covered subscription log initial (state.setPhase member phase) :=
  covered.replace (fun _ _ _ owner => owner) fun _ owner before =>
    .inl (covered.settled idle owner before)

/-- With nothing left to deliver, a member may commit its positions. -/
theorem Covered.commitPositions (idle : (state.members member).phase.waiting = [])
    (applied : TopicPartition → Bool) :
    Covered subscription log initial (state.commitPositions member applied) where
  committed record before := by
    have upper := before.upper
    simp only [State.commitPositions] at upper
    split at upper
    · rename_i chosen
      exact covered.settled idle chosen.1 { before with upper }
    · exact covered.committed record { before with upper }
  owned := covered.owned

theorem Covered.endBatch (committing : (state.members member).phase = .committing)
    (applied : TopicPartition → Bool) :
    Covered subscription log initial
      ((state.commitPositions member applied).setPhase member .select) := by
  have idle : (state.members member).phase.waiting = [] := by rw [committing]; rfl
  exact (covered.commitPositions idle applied).setPhase idle .select

variable {queues : List Queue} {queue : Queue}

omit covered in
theorem mem_waiting_of_mem_queues (listed : queue ∈ queues) (waits : record ∈ queue.records) :
    record ∈ Phase.waiting (.delivering queues) :=
  List.mem_flatMap.mpr ⟨queue, listed, waits⟩

theorem Covered.polled (idle : (state.members member).phase.waiting = [])
    (keys : List TopicPartition) (next : TopicPartition → Int) :
    Covered subscription log initial (state.polled log member keys next) := by
  refine covered.replace (fun _ _ _ owner => owner) fun record owner before => ?_
  have upper := before.upper
  by_cases old : record.offset < (state.members member).position record.key
  · exact .inl (covered.settled idle owner { before with upper := old })
  right
  dsimp only at upper
  split at upper
  · -- The poll fetched the record.
    rename_i contained
    have listed : record.key ∈ keys := List.contains_iff_mem.mp contained
    have fetched : record ∈ Group.fetch (visible log) record.key
        ((state.members member).position record.key) (next record.key) :=
      Group.mem_fetch.mpr ⟨rfl, not_lt.mp old, upper, before.readable⟩
    have queued := List.mem_map_of_mem
      (f := fun key => ({
        stage := Stage.fresh
        records := Group.fetch (visible log) key
          ((state.members member).position key) (next key) } : Queue)) listed
    dsimp only
    rw [if_neg]
    · exact mem_waiting_of_mem_queues queued fetched
    · intro allEmpty
      have empty := List.all_eq_true.mp allEmpty _ queued
      simp only [List.isEmpty_iff] at empty
      simp [empty] at fetched
  · exact absurd upper old

theorem Covered.work {index : Nat} {after : Queue} {action : QueueAction} {effect : Effect}
    (delivering : (state.members member).phase = .delivering queues)
    (listed : queues[index]? = some queue)
    (taken : queue.step subscription log action = some (after, effect))
    (kept : ∀ written, action = .deadLetter written →
      (written || subscription.deadLetterTopic.isNone) = true) :
    Covered subscription log initial
      ((state.setPhase member (.delivering (queues.set index after))).absorb effect) := by
  refine (covered.absorb effect).replace (fun _ _ _ owner => owner) fun record owner before => ?_
  obtain settled | waits := covered.owned member record owner before
  · exact .inl (settled.absorb effect)
  rw [delivering] at waits
  obtain ⟨holder, held, inside⟩ := List.mem_flatMap.mp waits
  obtain ⟨place, found⟩ := List.getElem?_of_mem held
  have bound : index < queues.length := (List.getElem?_eq_some_iff.mp listed).1
  by_cases here : place = index
  · subst here
    obtain rfl : queue = holder := Option.some.inj (listed.symm.trans found)
    obtain stays | settled := settled_of_queue_step state taken kept inside
    · right
      exact mem_waiting_of_mem_queues (List.mem_of_getElem? (List.getElem?_set_self bound)) stays
    · exact .inl settled
  · right
    have unchanged : (queues.set index after)[place]? = some holder := by
      rw [List.getElem?_set_ne (Ne.symm here), found]
    exact mem_waiting_of_mem_queues (List.mem_of_getElem? unchanged) inside

theorem Covered.step {action : Action} {next : State}
    (careful : state.careful subscription action = true)
    (taken : state.step subscription log action = some next) :
    Covered subscription log initial next := by
  cases action with
  | assign key member =>
    simp only [State.step, Option.ite_none_right_eq_some, Option.some.injEq] at taken
    exact taken.2 ▸ covered.assign key member
  | revoke key =>
    cases taken
    refine covered.disown fun other member owner => ?_
    by_cases same : other = key
    · simp [same] at owner
    · simpa [same] using owner
  | poll member keys next =>
    simp only [State.step] at taken
    split at taken
    · rename_i selecting
      simp only [Option.ite_none_right_eq_some, Option.some.injEq] at taken
      exact taken.2 ▸ covered.polled (by rw [selecting]; rfl) keys next
    · contradiction
  | work member index action =>
    simp only [State.step] at taken
    split at taken
    · rename_i queues delivering
      simp only [Option.bind_eq_bind, Option.bind_eq_some_iff, Option.pure_def,
        Option.some.injEq] at taken
      obtain ⟨queue, listed, ⟨after, effect⟩, stepped, rfl⟩ := taken
      refine covered.work delivering listed stepped fun written shape => ?_
      subst shape
      exact careful
    · contradiction
  | batchDone member =>
    simp only [State.step] at taken
    split at taken
    · rename_i queues delivering
      simp only [Option.ite_none_right_eq_some, Option.some.injEq] at taken
      refine taken.2 ▸ covered.setPhase ?_ .committing
      rw [delivering]
      refine List.flatMap_eq_nil_iff.mpr fun queue listed => ?_
      exact List.isEmpty_iff.mp (List.all_eq_true.mp taken.1 queue listed)
    · contradiction
  | commit member =>
    simp only [State.step] at taken
    split at taken
    · rename_i committing
      cases taken
      exact covered.endBatch committing _
    · contradiction
  | commitFailed member applied =>
    simp only [State.step] at taken
    split at taken
    · rename_i committing
      cases taken
      exact covered.endBatch committing _
    · contradiction
  | nativeCommit member =>
    cases taken
    refine covered.commitPositions (waiting_nil_of_not_delivering ?_) _
    simpa [State.careful] using careful
  | stop member =>
    simp only [State.step] at taken
    split at taken
    · rename_i selecting
      cases taken
      exact covered.setPhase (by rw [selecting]; rfl) .closed
    · contradiction
  | crash member =>
    cases taken
    refine covered.replace (fun key other _ owner => ?_) fun record owner => ?_
    · split at owner
      · contradiction
      · exact owner
    · split at owner <;> contradiction

end Steps

/-- The group's committed offset passes only settled records, as long as no write to the
dead-letter topic fails and the native client does not commit in the middle of a batch. -/
theorem commit_passes_only_settled {initial : TopicPartition → Int} {actions : List Action}
    {state : State}
    (along : Run.Along (step subscription log)
      (fun state action => state.careful subscription action = true) (start initial) actions)
    (run : Run.exec (step subscription log) (start initial) actions = some state)
    {record : Coordinate} (lower : initial record.key ≤ record.offset)
    (natural : 0 ≤ record.offset) (present : visible log record.key record.offset = true)
    (passed : record.offset < state.committed record.key) :
    state.Settled subscription log record := by
  have covered : Covered subscription log initial state :=
    Run.exec_preserves (Covered subscription log initial)
      (fun _ _ _ covered careful taken => covered.step careful taken) (covered_start initial)
      along run
  exact covered.committed record { lower, upper := passed, readable := ⟨natural, present⟩ }

/-- One visible record, `orders` 0 at offset 0. -/
def oneOrder : Log := fun key offset =>
  if key = ("orders", 0) ∧ offset = 0 then
    some { key := none, value := some [123, 125], headers := [], timestamp := 0 }
  else none

def ordersHook : CompiledSubscription where
  filter := none
  renders := fun _ _ => true
  maxAttempts := 2
  deadLetterTopic := some "orders.dlq"

/-- The target refuses both attempts; the dead-letter write may fail. -/
def refusedTwice (written : Bool) : List Action :=
  [.assign ("orders", 0) 0, .poll 0 [("orders", 0)] (fun _ => 1), .work 0 0 .start,
    .work 0 0 (.post false), .work 0 0 (.post false), .work 0 0 (.deadLetter written),
    .batchDone 0, .commit 0]

theorem commit_passes_dead_lettered_order :
    ∃ state, Run.exec (step ordersHook oneOrder) (start fun _ => 0) (refusedTwice true) =
        some state ∧ 0 < state.committed ("orders", 0) ∧
      state.Settled ordersHook oneOrder ⟨("orders", 0), 0⟩ := by
  refine ⟨_, rfl, by decide, ?_⟩
  exact commit_passes_only_settled (by decide)
    (show Run.exec _ (start fun _ => 0) (refusedTwice true) = some _ from rfl)
    (by decide) (by decide) (by decide) (by decide)

/-- The order was neither delivered nor written to the dead-letter topic, and the group never reads
it again. -/
theorem commit_passes_lost_order :
    ∃ state, Run.exec (step ordersHook oneOrder) (start fun _ => 0) (refusedTwice false) =
        some state ∧ 0 < state.committed ("orders", 0) ∧
      ¬ state.Settled ordersHook oneOrder ⟨("orders", 0), 0⟩ :=
  ⟨_, rfl, by decide, by decide⟩

end State

end KrabkaGateway.Outbound
