import KrabkaGateway.Sdk.MockQueue

/-!
# The mock queue as a table of leases

What holds of the mock queue after any sequence of calls, by any clients with any sessions and
groups: each message has one lease in each group, the lease is taken, settled and counted by the
calls of the group alone, and it is settled for good once it is accepted or rejected.
-/

namespace KrabkaGateway.Sdk

open Lib Lib.Run
open Queue (Coordinate)

/-! ## Sessions -/

theorem sessionName_inj {number other : Nat} (same : sessionName number = sessionName other) :
    number = other :=
  numbered_inj same

theorem one_le_effectiveMax (requested : Nat) : 1 ≤ effectiveMax requested :=
  Nat.le_max_left 1 _

def Serves (sessions : List MockQueueSession) (sessionId topic group : String) (count : Nat) :
    Prop :=
  ∃ session ∈ sessions, session.id = sessionId ∧ session.topic = topic ∧ session.group = group ∧
    count ≤ session.maxMessages

/-- What a list of sessions grows by when a request is granted a session. -/
inductive Grown (sessions : List MockQueueSession) : List MockQueueSession → Prop where
  | same : Grown sessions sessions
  | made {session : MockQueueSession} (named : session.id = sessionName (sessions.length + 1))
      (limited : 1 ≤ session.maxMessages) : Grown sessions (sessions ++ [session])

variable {topic group sessionId : String} {requestedMax : Nat}

theorem mockSessionId_join {sessions after : List MockQueueSession} {requested : String}
    {effectiveMax : Nat} (given : requested ≠ "")
    (granted : mockSessionId sessions requested topic group requestedMax effectiveMax =
      .ok (after, sessionId)) :
    after = sessions ∧ sessionId = requested ∧
      ∃ session, Keyed.find MockQueueSession.id sessions requested = some session ∧
        session.topic = topic ∧ session.group = group ∧
        (requestedMax ≠ 0 → effectiveMax = session.maxMessages) := by
  unfold mockSessionId at granted
  rw [if_pos given] at granted
  cases found : Keyed.find MockQueueSession.id sessions requested with
  | none => simp [found] at granted
  | some session =>
    simp only [found] at granted
    split at granted
    · cases granted
    rename_i fixed
    split at granted
    · cases granted
    rename_i fits
    cases granted
    push Not at fixed fits
    exact ⟨rfl, rfl, session, rfl, fixed.1, fixed.2, fits⟩

theorem mockSessionId_new {sessions after : List MockQueueSession} {effectiveMax : Nat}
    (granted : mockSessionId sessions "" topic group requestedMax effectiveMax =
      .ok (after, sessionId)) :
    sessionId = sessionName (sessions.length + 1) ∧
      after = sessions ++ [{ id := sessionId, topic, group, maxMessages := effectiveMax }] := by
  unfold mockSessionId at granted
  rw [if_neg fun named => named rfl] at granted
  cases granted
  exact ⟨rfl, rfl⟩

theorem mockSessionId_ok {sessions after : List MockQueueSession} {requested : String}
    (limited : ∀ session ∈ sessions, 1 ≤ session.maxMessages)
    (granted : mockSessionId sessions requested topic group requestedMax
      (effectiveMax requestedMax) = .ok (after, sessionId)) :
    Serves after sessionId topic group (effectiveMax requestedMax) ∧ Grown sessions after := by
  by_cases given : requested = ""
  · subst given
    obtain ⟨named, rfl⟩ := mockSessionId_new granted
    exact ⟨⟨_, List.mem_append_right _ List.mem_cons_self, rfl, rfl, rfl, le_rfl⟩,
      .made named (one_le_effectiveMax requestedMax)⟩
  · obtain ⟨rfl, rfl, session, found, topics, groups, fits⟩ := mockSessionId_join given granted
    obtain ⟨member, own⟩ := Keyed.find_some found
    refine ⟨⟨session, member, own, topics, groups, ?_⟩, .same⟩
    by_cases default : requestedMax = 0
    · subst default
      exact limited session member
    · exact (fits default).le

variable {state : MockState}

/-- The checks an acquire passes, and what it does then. -/
theorem acquireWithSession_ok {next : MockState} {options : AcquireOptions}
    {result : QueueAcquireResult}
    (success : acquireWithSession state topic group options sessionId = .ok (next, result)) :
    (group ≠ "" ∧ topic ≠ "" ∧ options.lockDurationMs = supportedQueueLockDurationMs) ∧
      mockSessionId state.queueSessions sessionId topic group options.max
        (effectiveMax options.max) = .ok (next.queueSessions, result.sessionId) ∧
      next.messages = state.messages ∧
      deliver result.sessionId group state.queueStates
        ((state.available topic group).take (effectiveMax options.max)) =
          (next.queueStates, result.messages) := by
  unfold acquireWithSession at success
  split at success
  · cases success
  rename_i grouped
  split at success
  · cases success
  rename_i named
  split at success
  · cases success
  rename_i lock
  unfold acquireMock at success
  dsimp only at success
  split at success
  · cases success
  · rename_i granted
    cases success
    exact ⟨⟨grouped, named, not_not.mp lock⟩, granted, rfl, rfl⟩

/-! ## The invariant -/

structure MockState.Inv (state : MockState) : Prop where
  kept : Kept state.queueStates
  named : state.queueSessions.map MockQueueSession.id =
    (List.range state.queueSessions.length).map fun index => sessionName (index + 1)
  limited : ∀ session ∈ state.queueSessions, 1 ≤ session.maxMessages
  below : ∀ message ∈ state.messages,
    message.offset.toInt < (state.messages.filter fun other => other.topic = message.topic).length
  ordered : state.messages.Pairwise fun earlier later =>
    earlier.topic = later.topic → earlier.offset < later.offset
  held : ∀ group delivery sessionId,
    (state.lease group delivery).disposition = .acquired sessionId →
      ∃ count, Serves state.queueSessions sessionId delivery.topic group count

namespace MockState.Inv

variable {state next : MockState}

theorem empty : MockState.empty.Inv where
  kept := List.nodup_nil
  named := rfl
  limited := nofun
  below := nofun
  ordered := List.Pairwise.nil
  held := by
    intro group delivery sessionId acquired
    cases acquired

theorem sessions (inv : state.Inv) : Keyed.Unique MockQueueSession.id state.queueSessions := by
  rw [Keyed.Unique, inv.named]
  exact List.nodup_range.map fun number other same => Nat.succ_injective (sessionName_inj same)

/-- The name of the next session is new. -/
theorem fresh (inv : state.Inv) {session : MockQueueSession}
    (member : session ∈ state.queueSessions) :
    session.id ≠ sessionName (state.queueSessions.length + 1) := by
  intro same
  have listed := List.mem_map_of_mem (f := MockQueueSession.id) member
  rw [inv.named] at listed
  obtain ⟨index, below, own⟩ := List.mem_map.mp listed
  have last := sessionName_inj (own.trans same)
  have bound := List.mem_range.mp below
  omega

theorem distinct (inv : state.Inv) : (state.messages.map MockMessage.delivery).Nodup := by
  rw [List.Nodup, List.pairwise_map]
  refine inv.ordered.imp fun {earlier later} less same => ?_
  have topics : earlier.topic = later.topic := congrArg Coordinate.topic same
  have offsets : earlier.offset = later.offset := congrArg Coordinate.offset same
  exact Int64.lt_irrefl (offsets ▸ less topics)

variable {topic : String}

theorem published {value : Bytes} {headers : List (String × Option Bytes)}
    {answer : Except KrabkaError (MockState × RecordResult)}
    (taken : publishMock state topic value headers = some answer) :
    state.behind answer = state ∨
      ∃ message : MockMessage,
        state.behind answer = { state with messages := state.messages ++ [message] } ∧
        message.offset.toInt =
          (state.messages.filter fun other => other.topic = message.topic).length := by
  unfold publishMock at taken
  split at taken
  · cases taken
    exact Or.inl rfl
  split at taken
  · cases taken
    exact Or.inl rfl
  dsimp only at taken
  split at taken
  · rename_i countable
    cases taken
    exact Or.inr ⟨_, rfl, Int64.toInt_ofNat_of_lt countable⟩
  · cases taken

theorem publish (inv : state.Inv) {message : MockMessage}
    (offset : message.offset.toInt =
      (state.messages.filter fun other => other.topic = message.topic).length) :
    ({ state with messages := state.messages ++ [message] } : MockState).Inv := by
  refine { inv with below := ?_, ordered := ?_ }
  · -- Every topic keeps its messages, and the new message is one of its own topic.
    intro other member
    simp only [List.filter_append, List.length_append, Int.natCast_add]
    rcases List.mem_append.mp member with old | new
    · have less := inv.below other old
      omega
    · rw [List.mem_singleton] at new
      subst new
      rw [offset]
      simp only [decide_true, List.filter_cons_of_pos, List.filter_nil, List.length_singleton]
      omega
  · refine List.pairwise_append.mpr ⟨inv.ordered, List.pairwise_singleton _ _, ?_⟩
    intro earlier old later new topics
    rw [List.mem_singleton] at new
    subst new
    rw [Int64.lt_iff_toInt_lt, offset, ← topics]
    exact inv.below earlier old

/-- What an acquire that succeeds has done. -/
structure Acquired (state : MockState) (topic group : String) (maximum : Nat) (next : MockState)
    (result : QueueAcquireResult) : Prop where
  serves : Serves next.queueSessions result.sessionId topic group maximum
  grown : Grown state.queueSessions next.queueSessions
  messages : next.messages = state.messages
  marked : deliver result.sessionId group state.queueStates
    ((state.available topic group).take maximum) = (next.queueStates, result.messages)

variable {group sessionId : String} {result : QueueAcquireResult}

theorem acquired (inv : state.Inv) {options : AcquireOptions}
    (success : acquireWithSession state topic group options sessionId = .ok (next, result)) :
    Acquired state topic group (effectiveMax options.max) next result := by
  obtain ⟨_, granted, messages, marked⟩ := acquireWithSession_ok success
  obtain ⟨serves, grown⟩ := mockSessionId_ok inv.limited granted
  exact ⟨serves, grown, messages, marked⟩

theorem distinct_available (inv : state.Inv) (topic group : String) (maximum : Nat) :
    (((state.available topic group).take maximum).map MockMessage.delivery).Nodup :=
  inv.distinct.sublist (((List.take_sublist _ _).trans
    (List.filter_sublist.trans List.filter_sublist)).map _)

variable {maximum : Nat}

theorem lease_acquired (inv : state.Inv) (acquired : Acquired state topic group maximum next result)
    (other : String) (delivery : Coordinate) :
    next.lease other delivery =
      if other = group ∧
          delivery ∈ ((state.available topic group).take maximum).map MockMessage.delivery then
        (state.lease other delivery).take result.sessionId
      else state.lease other delivery := by
  have lease := leaseIn_deliver result.sessionId group inv.kept
    (inv.distinct_available topic group maximum) other delivery
  rw [acquired.marked] at lease
  exact lease

theorem topic_of_mem_available {delivery : Coordinate}
    (member : delivery ∈ ((state.available topic group).take maximum).map MockMessage.delivery) :
    delivery.topic = topic := by
  obtain ⟨message, taken, rfl⟩ := List.mem_map.mp member
  have listed := List.mem_of_mem_take taken
  rw [MockState.available, List.mem_filter, List.mem_filter] at listed
  exact of_decide_eq_true listed.1.2

theorem grow (inv : state.Inv) {sessions : List MockQueueSession}
    (grown : Grown state.queueSessions sessions) :
    ({ state with queueSessions := sessions } : MockState).Inv := by
  cases grown with
  | same => exact inv
  | made named limited =>
    refine { inv with named := ?_, limited := ?_, held := ?_ }
    · rw [List.map_append, inv.named, List.length_append, List.length_singleton,
        List.range_succ, List.map_append, List.map_singleton, List.map_singleton, named]
    · intro session member
      rcases List.mem_append.mp member with old | new
      · exact inv.limited session old
      · rw [List.mem_singleton] at new
        exact new ▸ limited
    · intro group delivery sessionId acquired
      obtain ⟨count, session, member, own⟩ := inv.held group delivery sessionId acquired
      exact ⟨count, session, List.mem_append_left _ member, own⟩

theorem acquire (inv : state.Inv) (acquired : Acquired state topic group maximum next result) :
    next.Inv := by
  have grown := inv.grow acquired.grown
  have kept := inv.kept.deliver result.sessionId group ((state.available topic group).take maximum)
  rw [acquired.marked] at kept
  refine { grown with kept, below := ?_, ordered := ?_, held := ?_ }
  · rw [acquired.messages]
    exact inv.below
  · rw [acquired.messages]
    exact inv.ordered
  · intro other delivery sessionId holds
    rw [inv.lease_acquired acquired] at holds
    split at holds
    · rename_i taken
      obtain ⟨rfl, member⟩ := taken
      cases holds
      rw [topic_of_mem_available member]
      exact ⟨maximum, acquired.serves⟩
    · exact grown.held other delivery sessionId holds

theorem acknowledged {entries : List QueueAckEntry} {results : List QueueAckResult}
    (success : acknowledgeMock state sessionId entries = .ok (next, results)) :
    ∃ session ∈ state.queueSessions, session.id = sessionId ∧
      next = { state with queueStates :=
        (acknowledgeEntries session.group sessionId state.queueStates entries).1 } ∧
      results = (acknowledgeEntries session.group sessionId state.queueStates entries).2 := by
  unfold acknowledgeMock at success
  split at success
  · cases success
  · rename_i session found
    cases success
    obtain ⟨member, own⟩ := Keyed.find_some found
    exact ⟨session, member, own, rfl, rfl⟩

theorem acknowledge (inv : state.Inv) (group sessionId : String) (entries : List QueueAckEntry) :
    ({ state with queueStates :=
      (acknowledgeEntries group sessionId state.queueStates entries).1 } : MockState).Inv := by
  refine { inv with kept := inv.kept.acknowledgeEntries sessionId group entries, held := ?_ }
  intro other delivery holder acquired
  refine inv.held other delivery holder ?_
  have lease := leaseIn_acknowledgeEntries sessionId group inv.kept entries other delivery
  rw [MockState.lease, lease] at acquired
  split at acquired
  · unfold Lease.behind at acquired
    split at acquired
    · split at acquired
      · exact absurd acquired (disposition_ne_acquired _ _)
      · exact acquired
    · exact acquired
  · exact acquired

end MockState.Inv

theorem inv_step {next : MockState} {call : Call} (inv : state.Inv)
    (taken : state.step call = some next) : next.Inv := by
  cases call with
  | publish topic value headers =>
    obtain ⟨answer, published, rfl⟩ := Option.map_eq_some_iff.mp taken
    rcases MockState.Inv.published published with same | ⟨message, same, offset⟩
    · rw [same]
      exact inv
    · rw [same]
      exact inv.publish offset
  | acquire topic group options sessionId =>
    cases taken
    cases answer : acquireWithSession state topic group options sessionId with
    | error _ => exact inv
    | ok reached => exact inv.acquire (inv.acquired answer)
  | acknowledge sessionId entries =>
    cases taken
    cases answer : acknowledgeMock state sessionId entries with
    | error _ => exact inv
    | ok reached =>
      obtain ⟨session, _, _, same, _⟩ := MockState.Inv.acknowledged answer
      rw [MockState.behind, same]
      exact inv.acknowledge session.group sessionId entries
  | renew sessionId entries =>
    cases taken
    exact inv

theorem inv_exec {final : MockState} {calls : List Call} (inv : state.Inv)
    (run : exec MockState.step state calls = some final) : final.Inv :=
  exec_preserves_always MockState.Inv (fun _ _ _ => inv_step) inv run

/-! ## One call -/

section

variable {state next : MockState}

theorem available_eq (state : MockState) (topic group : String) :
    state.available topic group = state.messages.filter fun message =>
      message.topic = topic ∧ (state.lease group message.delivery).disposition = .available := by
  rw [MockState.available, List.filter_filter]
  refine List.filter_congr fun message _ => ?_
  rw [Bool.eq_iff_iff, Bool.and_eq_true, mockMessageIsAvailable_iff, decide_eq_true_eq,
    decide_eq_true_eq, and_comm]
  rfl

variable {group : String} {maximum : Nat} {delivery : Coordinate}

theorem disposition_of_mem_available
    (member : delivery ∈ ((state.available topic group).take maximum).map MockMessage.delivery) :
    (state.lease group delivery).disposition = .available := by
  obtain ⟨message, taken, rfl⟩ := List.mem_map.mp member
  have listed := List.mem_of_mem_take taken
  rw [MockState.available, List.mem_filter] at listed
  exact (mockMessageIsAvailable_iff group).mp listed.2

variable {result : QueueAcquireResult}

theorem messages_of_acquired (inv : state.Inv)
    (acquired : MockState.Inv.Acquired state topic group maximum next result) :
    result.messages = ((state.available topic group).take maximum).map fun message =>
      queueMessageFromMock message (next.lease group message.delivery).deliveryCount := by
  have messages := deliver_messages result.sessionId group inv.kept
    (inv.distinct_available topic group maximum)
  rw [acquired.marked] at messages
  rw [show result.messages = _ from messages]
  refine List.map_congr_left fun message member => ?_
  rw [inv.lease_acquired acquired, if_pos ⟨rfl, List.mem_map_of_mem member⟩]
  rfl

theorem deliveries_of_acquired (inv : state.Inv)
    (acquired : MockState.Inv.Acquired state topic group maximum next result) :
    result.messages.map QueueMessage.delivery =
      ((state.available topic group).take maximum).map MockMessage.delivery := by
  rw [messages_of_acquired inv acquired, List.map_map]
  rfl

def MockState.deliveries (group : String) (delivery : Coordinate) (state : MockState) : Call → Nat
  | .acquire topic own options sessionId =>
    match acquireWithSession state topic own options sessionId with
    | .ok (_, result) =>
      if own = group ∧ delivery ∈ result.messages.map QueueMessage.delivery then 1 else 0
    | .error _ => 0
  | _ => 0

inductive Lease.Step (state : MockState) (group : String) (delivery : Coordinate) :
    Call → Lease → Prop where
  | same {call : Call} (unmoved : state.deliveries group delivery call = 0) :
      Lease.Step state group delivery call (state.lease group delivery)
  | take {topic sessionId : String} {options : AcquireOptions} {next : MockState}
      {result : QueueAcquireResult}
      (success : acquireWithSession state topic group options sessionId = .ok (next, result))
      (member : delivery ∈ result.messages.map QueueMessage.delivery)
      (free : (state.lease group delivery).disposition = .available) :
      Lease.Step state group delivery (.acquire topic group options sessionId)
        ((state.lease group delivery).take result.sessionId)
  | settle {sessionId : String} {entries : List QueueAckEntry} {entry : QueueAckEntry}
      (member : entry ∈ entries) (own : entry.delivery = delivery)
      (held : (state.lease group delivery).disposition = .acquired sessionId) :
      Lease.Step state group delivery (.acknowledge sessionId entries)
        ((state.lease group delivery).settle entry.ackType.disposition)

variable {call : Call}

variable (inv : state.Inv) (taken : state.step call = some next)

include inv taken

theorem lease_step (group : String) (delivery : Coordinate) :
    Lease.Step state group delivery call (next.lease group delivery) := by
  cases call with
  | publish topic value headers =>
    have same : next.queueStates = state.queueStates := by
      obtain ⟨answer, published, rfl⟩ := Option.map_eq_some_iff.mp taken
      rcases MockState.Inv.published published with same | ⟨message, same, _⟩
      · rw [same]
      · rw [same]
    rw [MockState.lease, same]
    exact .same rfl
  | acquire topic own options sessionId =>
    cases taken
    cases answer : acquireWithSession state topic own options sessionId with
    | error _ => exact .same (by simp [MockState.deliveries, answer])
    | ok reached =>
      have acquired := inv.acquired answer
      have deliveries := deliveries_of_acquired inv acquired
      rw [show state.behind (.ok reached) = reached.1 from rfl, inv.lease_acquired acquired]
      split
      · rename_i marked
        obtain ⟨rfl, member⟩ := marked
        refine .take answer ?_ (disposition_of_mem_available member)
        rw [deliveries]
        exact member
      · rename_i unmarked
        refine .same ?_
        simp only [MockState.deliveries, answer, deliveries]
        exact if_neg fun marked => unmarked ⟨marked.1.symm, marked.2⟩
  | acknowledge sessionId entries =>
    cases taken
    cases answer : acknowledgeMock state sessionId entries with
    | error _ => exact .same rfl
    | ok reached =>
      obtain ⟨session, _, _, same, _⟩ := MockState.Inv.acknowledged answer
      rw [show state.behind (.ok reached) = reached.1 from rfl, same, MockState.lease,
        leaseIn_acknowledgeEntries sessionId session.group inv.kept]
      split
      · unfold Lease.behind
        split
        · rename_i held
          split
          · rename_i entry found
            have own := List.find?_some found
            exact .settle (List.mem_of_find?_eq_some found) (of_decide_eq_true own) held
          · exact .same rfl
        · exact .same rfl
      · exact .same rfl
  | renew sessionId entries =>
    cases taken
    exact .same rfl

def MockState.groupOf (state : MockState) : Call → Option String
  | .publish _ _ _ => none
  | .acquire _ group _ _ => some group
  | .acknowledge sessionId _ | .renew sessionId _ =>
    (Keyed.find MockQueueSession.id state.queueSessions sessionId).map MockQueueSession.group

/-- Records of other groups stay where they are and as they are. -/
theorem filter_step (other : state.groupOf call ≠ some group) :
    next.queueStates.filter (fun queueState => queueState.group = group) =
      state.queueStates.filter fun queueState => queueState.group = group := by
  cases call with
  | publish topic value headers =>
    obtain ⟨answer, published, rfl⟩ := Option.map_eq_some_iff.mp taken
    rcases MockState.Inv.published published with same | ⟨message, same, _⟩
    · rw [same]
    · rw [same]
  | acquire topic own options sessionId =>
    cases taken
    have different : own ≠ group := fun same => other (congrArg some same)
    cases answer : acquireWithSession state topic own options sessionId with
    | error _ => rfl
    | ok reached =>
      have apart := filter_deliver reached.2.sessionId own
        ((state.available topic own).take (effectiveMax options.max)) different
        state.queueStates
      rw [(inv.acquired answer).marked] at apart
      exact apart
  | acknowledge sessionId entries =>
    cases taken
    cases answer : acknowledgeMock state sessionId entries with
    | error _ => rfl
    | ok reached =>
      obtain ⟨session, member, rfl, same, _⟩ := MockState.Inv.acknowledged answer
      have different : session.group ≠ group := by
        intro same
        exact other
          (by rw [MockState.groupOf, inv.sessions.find_of_mem member, Option.map_some, same])
      rw [MockState.behind, same]
      exact filter_acknowledgeEntries session.id session.group entries different
        state.queueStates
  | renew sessionId entries =>
    cases taken
    rfl

theorem deliveryCount_step (small : (state.lease group delivery).deliveryCount ≤ maxDeliveryCount) :
    (next.lease group delivery).deliveryCount =
      min ((state.lease group delivery).deliveryCount + state.deliveries group delivery call)
        maxDeliveryCount := by
  have step := lease_step inv taken group delivery
  generalize next.lease group delivery = lease at step
  cases step with
  | same unmoved => rw [unmoved, Nat.add_zero, min_eq_left small]
  | take success member _ =>
    simp only [MockState.deliveries, success, member, and_self, if_true]
    rfl
  | settle _ _ _ => exact (min_eq_left small).symm

/-- What is settled stays settled. -/
theorem settled_step {disposition : MockQueueDisposition}
    (settled : disposition = .accepted ∨ disposition = .rejected)
    (now : (state.lease group delivery).disposition = disposition) :
    (next.lease group delivery).disposition = disposition := by
  have step := lease_step inv taken group delivery
  generalize next.lease group delivery = lease at step
  cases step with
  | same _ => exact now
  | take _ _ free =>
    rw [free] at now
    rcases settled with rfl | rfl <;> cases now
  | settle _ _ held =>
    rw [held] at now
    rcases settled with rfl | rfl <;> cases now

/-- A message is taken from the session that has it by an acknowledgement of that session only. -/
theorem held_step (held : (state.lease group delivery).disposition = .acquired sessionId)
    (lost : (next.lease group delivery).disposition ≠ .acquired sessionId) :
    ∃ entries, call = .acknowledge sessionId entries ∧
      delivery ∈ entries.map QueueAckEntry.delivery := by
  have step := lease_step inv taken group delivery
  generalize next.lease group delivery = lease at step lost
  cases step with
  | same _ => exact absurd held lost
  | take _ _ free => cases free.symm.trans held
  | settle member own holder =>
    cases holder.symm.trans held
    exact ⟨_, rfl, List.mem_map.mpr ⟨_, member, own⟩⟩

end

/-! ## Every sequence of calls -/

def MockState.Is (state : MockState) (group : String) (delivery : Coordinate)
    (disposition : MockQueueDisposition) : Prop :=
  (∃ queueState ∈ state.queueStates,
    queueState.key = (group, delivery) ∧ queueState.disposition = disposition) ∨
  (disposition = .available ∧
    ∀ queueState ∈ state.queueStates, queueState.key ≠ (group, delivery))

theorem is_iff (kept : Kept state.queueStates) {delivery : Coordinate}
    {disposition : MockQueueDisposition} :
    state.Is group delivery disposition ↔
      (state.lease group delivery).disposition = disposition := by
  unfold MockState.Is MockState.lease leaseIn
  cases found : Keyed.find MockQueueMessageState.key state.queueStates (group, delivery) with
  | none =>
    have missing : ∀ queueState ∈ state.queueStates, queueState.key ≠ (group, delivery) := by
      simpa using Keyed.find_eq_none.mp found
    constructor
    · rintro (⟨queueState, member, own, _⟩ | ⟨rfl, _⟩)
      · exact absurd own (missing queueState member)
      · rfl
    · rintro rfl
      exact Or.inr ⟨rfl, missing⟩
  | some record =>
    obtain ⟨member, own⟩ := Keyed.find_some found
    constructor
    · rintro (⟨queueState, present, same, rfl⟩ | ⟨_, missing⟩)
      · have again := kept.find_of_mem present
        rw [same, found] at again
        cases again
        rfl
      · exact absurd own (missing record member)
    · rintro rfl
      exact Or.inl ⟨record, member, own, rfl⟩

/-- An acquire hands out the oldest messages of the topic that are available in the group, no more
than its session takes at once, and marks these and no others. -/
structure AcquiresOldest (state : MockState) (topic group : String) (options : AcquireOptions)
    (next : MockState) (result : QueueAcquireResult) : Prop where
  limit : Serves next.queueSessions result.sessionId topic group result.messages.length
  oldest : result.messages =
    ((state.messages.filter fun message => message.topic = topic ∧
      (state.lease group message.delivery).disposition = .available).take
        (effectiveMax options.max)).map fun message =>
      queueMessageFromMock message (next.lease group message.delivery).deliveryCount
  ordered : result.messages.Pairwise fun earlier later => earlier.offset < later.offset
  marks : ∀ message ∈ result.messages, next.Is group message.delivery (.acquired result.sessionId)
  others : ∀ other delivery,
    (other = group → delivery ∉ result.messages.map QueueMessage.delivery) →
      next.lease other delivery = state.lease other delivery

/-- An entry settles a message that the session has. The messages of refused entries, and those
that no entry names, stay as they are. -/
structure SettlesHeld (state : MockState) (sessionId : String) (entries : List QueueAckEntry)
    (next : MockState) (results : List QueueAckResult) : Prop where
  length : results.length = entries.length
  settles : ∃ session ∈ state.queueSessions, session.id = sessionId ∧
    (∀ group delivery,
      (group = session.group → state.Is group delivery (.acquired sessionId) →
        delivery ∉ entries.map QueueAckEntry.delivery) →
      next.lease group delivery = state.lease group delivery) ∧
    ∀ before entry after, entries = before ++ entry :: after →
      (state.Is session.group entry.delivery (.acquired sessionId) ∧
          entry.delivery ∉ before.map QueueAckEntry.delivery ∧
          results[before.length]? = some { entry := entry.delivery, error := none } ∧
          next.Is session.group entry.delivery entry.ackType.disposition) ∨
      ((¬ state.Is session.group entry.delivery (.acquired sessionId) ∨
          entry.delivery ∈ before.map QueueAckEntry.delivery) ∧
        results[before.length]? =
          some (queueResultError entry.delivery "queue message is not acquired"))
/-- A renewal succeeds for the messages that the session has. -/
def RenewsHeld (state : MockState) (sessionId : String) (entries : List QueueRenewEntry)
    (results : List QueueAckResult) : Prop :=
  ∃ session ∈ state.queueSessions, session.id = sessionId ∧
    results = entries.map fun entry => answerTo entry
      ((state.lease session.group entry).disposition = .acquired sessionId)

structure IsLeaseTable (calls : List Call) (state : MockState) : Prop where
  apart : (state.messages.map MockMessage.delivery).Nodup
  one : ∀ group, ∀ message ∈ state.messages,
    ∃! disposition, state.Is group message.delivery disposition
  holder : ∀ group delivery sessionId, state.Is group delivery (.acquired sessionId) →
    ∃ session, (state.queueSessions.filter fun other => other.id = sessionId) = [session] ∧
      session.group = group ∧ session.topic = delivery.topic
  final : ∀ group delivery disposition, disposition = .accepted ∨ disposition = .rejected →
    state.Is group delivery disposition →
      ∀ more later, exec MockState.step state more = some later →
        later.Is group delivery disposition
  acquires : ∀ topic group options sessionId next result,
    acquireWithSession state topic group options sessionId = .ok (next, result) →
      AcquiresOldest state topic group options next result
  acknowledges : ∀ sessionId entries next results,
    acknowledgeMock state sessionId entries = .ok (next, results) →
      SettlesHeld state sessionId entries next results
  renews : ∀ sessionId entries results, renewMock state sessionId entries = .ok results →
    RenewsHeld state sessionId entries results
  holds : ∀ call next group delivery sessionId, state.step call = some next →
    state.Is group delivery (.acquired sessionId) →
      next.Is group delivery (.acquired sessionId) ∨
        ∃ entries, call = .acknowledge sessionId entries ∧
          delivery ∈ entries.map QueueAckEntry.delivery
  counted : ∀ group delivery, (state.lease group delivery).deliveryCount =
    min (cost MockState.step (MockState.deliveries group delivery) .empty calls) maxDeliveryCount
  groups : ∀ call next group, state.step call = some next → state.groupOf call ≠ some group →
    next.queueStates.filter (fun queueState => queueState.group = group) =
      state.queueStates.filter fun queueState => queueState.group = group

section

variable {state next : MockState}

variable {sessionId : String}

theorem acquiresOldest (inv : state.Inv) {options : AcquireOptions} {result : QueueAcquireResult}
    (success : acquireWithSession state topic group options sessionId = .ok (next, result)) :
    AcquiresOldest state topic group options next result := by
  have acquired := inv.acquired success
  have messages := messages_of_acquired inv acquired
  constructor
  · obtain ⟨session, member, own, topics, groups, fits⟩ := acquired.serves
    refine ⟨session, member, own, topics, groups, ?_⟩
    rw [messages, List.length_map]
    exact (List.length_take_le _ _).trans fits
  · rw [← available_eq]
    exact messages
  · rw [messages, List.pairwise_map]
    have same : ∀ message ∈ (state.available topic group).take (effectiveMax options.max),
        message.topic = topic := fun message member =>
      MockState.Inv.topic_of_mem_available (List.mem_map_of_mem member)
    have ordered := inv.ordered.sublist ((List.take_sublist (effectiveMax options.max) _).trans
      (List.filter_sublist.trans List.filter_sublist :
        (state.available topic group).Sublist state.messages))
    exact ordered.imp_of_mem fun {earlier later} first second less =>
      less ((same earlier first).trans (same later second).symm)
  · intro message member
    rw [is_iff (inv.acquire acquired).kept, inv.lease_acquired acquired, if_pos]
    · rfl
    · rw [← deliveries_of_acquired inv acquired]
      exact ⟨rfl, List.mem_map_of_mem member⟩
  · intro other delivery apart
    rw [inv.lease_acquired acquired, if_neg]
    rintro ⟨own, member⟩
    exact apart own (deliveries_of_acquired inv acquired ▸ member)

variable {results : List QueueAckResult}

theorem settlesHeld (inv : state.Inv) {entries : List QueueAckEntry}
    (success : acknowledgeMock state sessionId entries = .ok (next, results)) :
    SettlesHeld state sessionId entries next results := by
  obtain ⟨session, member, own, rfl, rfl⟩ := MockState.Inv.acknowledged success
  refine ⟨length_acknowledgeEntries _ _ _ _, session, member, own, ?_, ?_⟩
  · intro group delivery untouched
    rw [MockState.lease, leaseIn_acknowledgeEntries sessionId session.group inv.kept]
    split
    · rename_i here
      by_cases held : (leaseIn state.queueStates group delivery).disposition = .acquired sessionId
      · have missing : entries.find? (fun entry => entry.delivery = delivery) = none := by
          simpa using untouched here ((is_iff inv.kept).mpr held)
        rw [Lease.behind, if_pos held, missing]
        rfl
      · rw [Lease.behind, if_neg held]
        rfl
    · rfl
  rintro before entry after rfl
  rw [acknowledgeEntries_result sessionId session.group inv.kept, is_iff inv.kept,
    MockState.lease]
  by_cases first :
      (leaseIn state.queueStates session.group entry.delivery).disposition = .acquired sessionId ∧
        entry.delivery ∉ before.map QueueAckEntry.delivery
  · refine Or.inl ⟨first.1, first.2, ?_, ?_⟩
    · rw [decide_eq_true first]
      rfl
    · have found : (before ++ entry :: after).find? (fun other =>
          other.delivery = entry.delivery) = some entry := by
        have missing : before.find? (fun other => other.delivery = entry.delivery) = none := by
          simpa using first.2
        rw [List.find?_append, missing, Option.none_or,
          List.find?_cons_of_pos (by simp)]
      rw [is_iff (inv.acknowledge session.group sessionId _).kept, MockState.lease,
        leaseIn_acknowledgeEntries sessionId session.group inv.kept, if_pos rfl, Lease.behind,
        if_pos first.1, found]
      rfl
  · refine Or.inr ⟨?_, ?_⟩
    · by_contra neither
      push Not at neither
      exact first neither
    · rw [decide_eq_false first]
      rfl

theorem renewsHeld (inv : state.Inv) {entries : List QueueRenewEntry}
    (success : renewMock state sessionId entries = .ok results) :
    RenewsHeld state sessionId entries results := by
  unfold renewMock at success
  split at success
  · cases success
  · rename_i session found
    cases success
    obtain ⟨member, own⟩ := Keyed.find_some found
    refine ⟨session, member, own, List.map_congr_left fun entry _ => ?_⟩
    exact answerTo_isAcquired sessionId session.group inv.kept entry

/-- After any sequence of calls the mock queue is a table of leases. -/
theorem mock_queue_is_a_lease_table (calls : List Call) (state : MockState)
    (run : exec MockState.step .empty calls = some state) : IsLeaseTable calls state := by
  have inv := inv_exec .empty run
  constructor
  · exact inv.distinct
  · intro group message _
    simp only [is_iff inv.kept]
    exact existsUnique_eq'
  · intro group delivery sessionId held
    rw [is_iff inv.kept] at held
    obtain ⟨_, session, member, rfl, topic, own, _⟩ := inv.held group delivery sessionId held
    exact ⟨session, inv.sessions.filter_of_mem member, own, topic⟩
  · intro group delivery disposition settled now more later reached
    rw [is_iff inv.kept] at now
    have kept := exec_preserves_always
      (fun state => state.Inv ∧ (state.lease group delivery).disposition = disposition)
      (fun _ _ _ before taken =>
        ⟨inv_step before.1 taken, settled_step before.1 taken settled before.2⟩)
      ⟨inv, now⟩ reached
    exact (is_iff kept.1.kept).mpr kept.2
  · intro topic group options sessionId next result success
    exact acquiresOldest inv success
  · intro sessionId entries next results success
    exact settlesHeld inv success
  · intro sessionId entries results success
    exact renewsHeld inv success
  · intro call next group delivery sessionId taken held
    rw [is_iff inv.kept] at held
    rw [is_iff (inv_step inv taken).kept]
    by_cases still : (next.lease group delivery).disposition = .acquired sessionId
    · exact Or.inl still
    · exact Or.inr (held_step inv taken held still)
  · intro group delivery
    have counted := saturating_cost MockState.Inv
      (fun state => (state.lease group delivery).deliveryCount) (fun _ _ _ => inv_step)
      (fun _ _ _ inv small taken => deliveryCount_step inv taken small) .empty (Nat.zero_le _) run
    rw [counted]
    congr 1
    exact Nat.zero_add _
  · intro call next group taken other
    exact filter_step inv taken other

/-- Two sessions of a group and one of another group: a message that is not one's own is not
acknowledged, and a released message is handed out again. -/
def sharedTopic : List Call :=
  let one : AcquireOptions := { max := 1, lockDurationMs := 30000 }
  let first : Coordinate := { topic := "jobs", partition := 0, offset := 0 }
  [.publish "jobs" [1] [], .publish "jobs" [2] [],
    .acquire "jobs" "workers" one "", .acquire "jobs" "workers" one "",
    .acquire "jobs" "audit" one "",
    .acknowledge "mock-queue-session-2" [{ delivery := first, ackType := .accept }],
    .acknowledge "mock-queue-session-1" [{ delivery := first, ackType := .release }],
    .acquire "jobs" "workers" one "mock-queue-session-2",
    .acknowledge "mock-queue-session-2" [{ delivery := first, ackType := .accept }]]

theorem shared_topic_is_a_lease_table :
    ∃ state, exec MockState.step .empty sharedTopic = some state ∧
      IsLeaseTable sharedTopic state ∧
      state.lease "workers" ⟨"jobs", 0, 0⟩ = { disposition := .accepted, deliveryCount := 2 } ∧
      state.lease "workers" ⟨"jobs", 0, 1⟩ =
        { disposition := .acquired "mock-queue-session-2", deliveryCount := 1 } ∧
      state.lease "audit" ⟨"jobs", 0, 0⟩ =
        { disposition := .acquired "mock-queue-session-3", deliveryCount := 1 } :=
  ⟨_, rfl, mock_queue_is_a_lease_table _ _ rfl, by decide, by decide, by decide⟩

end

end KrabkaGateway.Sdk
