import KrabkaGateway.Queue.Alone
import KrabkaGateway.Sdk.LeaseTable

/-!
# From the mock queue to the gateway

The calls that one client makes on one session, on the mock of the SDK and on the handlers of the
gateway. The share group behind the gateway starts in the state of the mock's group. Message by
message the two agree, but the gateway has one batch out at a time, and a request that names no
limit gets one message from the mock and a whole batch from the gateway.
-/

namespace KrabkaGateway.Sdk

open Lib Lib.Run
open Queue (Coordinate RecordState ShareGroup Broker Client Handler AckEntry)

/-! ## Programs -/

inductive SessionCall where
  | acquire (topic group : String) (options : AcquireOptions)
  | acknowledge (entries : List QueueAckEntry)
  | renew (entries : List QueueRenewEntry)
  deriving DecidableEq, Repr

def SessionCall.onMock (sessionId : String) : SessionCall → Call
  | .acquire topic group options => .acquire topic group options sessionId
  | .acknowledge entries => .acknowledge sessionId entries
  | .renew entries => .renew sessionId entries

def mockStep (sessionId : String) (state : MockState) (call : SessionCall) : Option MockState :=
  state.step (call.onMock sessionId)

def succeedsOnMock (sessionId : String) (state : MockState) : SessionCall → Bool
  | .acquire topic group options =>
    match acquireWithSession state topic group options sessionId with
    | .ok _ => true
    | .error _ => false
  | .acknowledge entries =>
    match acknowledgeMock state sessionId entries with
    | .ok (_, results) => results.all fun result => result.error.isNone
    | .error _ => false
  | .renew entries =>
    match renewMock state sessionId entries with
    | .ok results => results.all fun result => result.error.isNone
    | .error _ => false

def MockState.holdsNothing (state : MockState) (sessionId : String) : Bool :=
  state.queueStates.all fun queueState => queueState.disposition ≠ .acquired sessionId

/-- A request that names no limit gets one message from the mock, and from the gateway as many as
the session takes. -/
def MockState.spares (limit : Nat) (state : MockState) : SessionCall → Bool
  | .acquire topic group options =>
    effectiveMax options.max < min limit (state.available topic group).length
  | _ => false

/-- The flag says that the session has a message on the gateway that the mock did not give it. -/
def spareStep (sessionId : String) (limit : Nat) :
    MockState × Bool → SessionCall → Option (MockState × Bool)
  | (state, spare), call =>
    (mockStep sessionId state call).map (·, spare || state.spares limit call)

def calm (sessionId : String) : MockState × Bool → SessionCall → Bool
  | (state, spare), .acquire _ _ _ => !spare && state.holdsNothing sessionId
  | _, _ => true

/-! ## Requests to the gateway -/

def acquireRequest (topic group : String) (options : AcquireOptions) (sessionId : String) :
    Queue.AcquireRequest where
  groupId := group
  topics := [topic]
  maxMessages := options.max
  sessionId := sessionId
  lockDurationMs := options.lockDurationMs

def QueueAckType.wire : QueueAckType → Int32
  | .accept => 1
  | .release => 2
  | .reject => 3

def QueueAckEntry.wire (entry : QueueAckEntry) : AckEntry where
  coordinate := entry.delivery
  ackType := entry.ackType.wire

/-- A renewal leaves the type unspecified. -/
def renewWire (entry : QueueRenewEntry) : AckEntry where
  coordinate := entry
  ackType := 0

/-- A call on the session that the gateway knows as `id`. -/
def gatewayStep (broker : Broker) (id : String) (client : Client) : SessionCall → Option Client
  | .acquire topic group options =>
    client.queueAcquire broker (acquireRequest topic group options id)
  | .acknowledge entries => client.queueHandle .acknowledge (entries.map QueueAckEntry.wire)
  | .renew entries => client.queueHandle .renew (entries.map renewWire)

def succeedsOnGateway (broker : Broker) (id : String) (client : Client) (call : SessionCall) :
    Bool :=
  match gatewayStep broker id client call with
  | some next => (next.object.session.calls client.calls).succeeded
  | none => false

/-! ## The same group on both sides -/

/-- How the member of a session sees a message. -/
def MockQueueDisposition.seenBy (sessionId : String) : MockQueueDisposition → RecordState
  | .available => .available
  | .acquired holder => .acquired (holder = sessionId)
  | .accepted | .rejected => .archived

def MockState.shareGroup (state : MockState) (group sessionId : String) : ShareGroup where
  log := state.messages.map MockMessage.delivery
  records := fun delivery => (state.lease group delivery).disposition.seenBy sessionId

variable {sessionId : String} {disposition : MockQueueDisposition}

theorem seenBy_eq_available :
    disposition.seenBy sessionId = .available ↔ disposition = .available := by
  cases disposition <;> simp [MockQueueDisposition.seenBy]

theorem seenBy_eq_own :
    disposition.seenBy sessionId = .acquired true ↔ disposition = .acquired sessionId := by
  cases disposition <;> simp [MockQueueDisposition.seenBy]

theorem available_shareGroup (state : MockState) (topic group sessionId : String) :
    (state.shareGroup group sessionId).available [topic] =
      (state.available topic group).map MockMessage.delivery := by
  rw [available_eq, ShareGroup.available, MockState.shareGroup, List.filter_map]
  congr 1
  refine List.filter_congr fun message _ => ?_
  rw [Function.comp_apply, decide_eq_decide, seenBy_eq_available, List.mem_singleton]
  rfl

def Has (sessionId group : String) (queueStates : List MockQueueMessageState)
    (delivery : Coordinate) : Prop :=
  (leaseIn queueStates group delivery).disposition = .acquired sessionId

/-- The gateway tracks what the session has on the mock; `spare` if it tracks more. -/
structure Tracks (sessionId group : String) (queueStates : List MockQueueMessageState)
    (spare : Bool) (tracked : Finset Coordinate) : Prop where
  has : ∀ delivery, Has sessionId group queueStates delivery → delivery ∈ tracked
  more : (∃ delivery ∈ tracked, ¬ Has sessionId group queueStates delivery) ↔ spare

def Sees (sessionId group : String) (queueStates : List MockQueueMessageState)
    (share : ShareGroup) : Prop :=
  ∀ delivery, share.records delivery =
    (leaseIn queueStates group delivery).disposition.seenBy sessionId

variable {state : MockState}

theorem eq_shareGroup {group : String} {share : ShareGroup}
    (log : share.log = state.messages.map MockMessage.delivery)
    (sees : Sees sessionId group state.queueStates share) :
    share = state.shareGroup group sessionId := by
  obtain ⟨messages, records⟩ := share
  rw [MockState.shareGroup, ← log]
  exact congrArg (ShareGroup.mk messages) (funext sees)

/-! ## Entries -/

section

variable {sessionId group : String} {queueStates : List MockQueueMessageState}

variable {share : ShareGroup}

theorem acknowledge_none (share : ShareGroup) (delivery : Coordinate) :
    share.acknowledge none delivery = share := by
  by_cases own : share.records delivery = .acquired true
  · have same : set share.records delivery (.acquired true) = share.records := by
      funext other
      by_cases here : other = delivery
      · rw [here, set_self, own]
      · rw [set_ne _ _ here]
    rw [ShareGroup.acknowledge, if_pos own, ShareGroup.settled, same]
  · rw [ShareGroup.acknowledge, if_neg own]

theorem settled_wire (sessionId : String) (ackType : QueueAckType) :
    ShareGroup.settled (Queue.ackTypeOf ackType.wire) = ackType.disposition.seenBy sessionId := by
  cases ackType <;> rfl

theorem asks_wire (entry : QueueAckEntry) : Handler.Asks .acknowledge entry.wire := by
  intro _
  obtain ⟨delivery, ackType⟩ := entry
  cases ackType <;> rfl

theorem has_acknowledgeOne (kept : Kept queueStates) {entry : QueueAckEntry}
    (held : Has sessionId group queueStates entry.delivery) (delivery : Coordinate) :
    Has sessionId group (acknowledgeOne group sessionId queueStates entry).1 delivery ↔
      delivery ≠ entry.delivery ∧ Has sessionId group queueStates delivery := by
  unfold Has at *
  rw [leaseIn_acknowledgeOne sessionId group kept]
  by_cases here : delivery = entry.delivery
  · rw [if_pos ⟨rfl, here, here ▸ held⟩]
    simp [here, Lease.settle, disposition_ne_acquired]
  · rw [if_neg fun all => here all.2.1]
    simp [here]

theorem Tracks.acknowledgeOne {spare : Bool} {tracked : Finset Coordinate}
    (tracks : Tracks sessionId group queueStates spare tracked) (kept : Kept queueStates)
    {entry : QueueAckEntry} (held : Has sessionId group queueStates entry.delivery) :
    Tracks sessionId group (acknowledgeOne group sessionId queueStates entry).1 spare
      (tracked.erase entry.delivery) where
  has := fun delivery has =>
    have own := (has_acknowledgeOne kept held delivery).mp has
    Finset.mem_erase.mpr ⟨own.1, tracks.has delivery own.2⟩
  more := by
    rw [← tracks.more]
    refine exists_congr fun delivery => ?_
    rw [Finset.mem_erase, has_acknowledgeOne kept held, and_assoc, not_and]
    constructor
    · exact fun ⟨other, inside, apart⟩ => ⟨inside, apart other⟩
    · exact fun ⟨inside, apart⟩ => ⟨fun here => apart (here ▸ held), inside, fun _ => apart⟩

theorem Sees.acknowledgeOne (sees : Sees sessionId group queueStates share)
    (kept : Kept queueStates) {entry : QueueAckEntry}
    (held : Has sessionId group queueStates entry.delivery) :
    Sees sessionId group (acknowledgeOne group sessionId queueStates entry).1
      (share.acknowledge (Queue.ackTypeOf entry.ackType.wire) entry.delivery) := by
  intro delivery
  have own : share.records entry.delivery = .acquired true :=
    (sees entry.delivery).trans (seenBy_eq_own.mpr held)
  rw [leaseIn_acknowledgeOne sessionId group kept, ShareGroup.acknowledge, if_pos own]
  by_cases here : delivery = entry.delivery
  · subst here
    rw [if_pos ⟨rfl, rfl, held⟩]
    exact (set_self _ _ _).trans (settled_wire sessionId entry.ackType)
  · rw [if_neg fun all => here all.2.1]
    exact (set_ne _ _ here).trans (sees delivery)

variable {session : Queue.Session}

theorem has_of_answerTo {entry : QueueRenewEntry}
    (success : (answerTo entry
      ((leaseIn queueStates group entry).disposition = .acquired sessionId)).error.isNone) :
    Has sessionId group queueStates entry := by
  by_contra free
  rw [Has] at free
  simp [answerTo, free] at success

theorem acknowledgeAlone {spare : Bool} (kept : Kept queueStates)
    (tracks : Tracks sessionId group queueStates spare session.tracked) (share : ShareGroup)
    (call : Nat) {entries : List QueueAckEntry} (results : List Queue.AckResult)
    (success : (acknowledgeEntries group sessionId queueStates entries).2.all
      fun result => result.error.isNone) :
    ∃ tracked after answers,
      Queue.entriesAlone
          (session.hold call (.working .acknowledge (entries.map QueueAckEntry.wire) results))
          share call entries.length =
        some ((session.track tracked).leave call (.answered (results ++ answers)), after) ∧
      after.log = share.log ∧
      Tracks sessionId group (acknowledgeEntries group sessionId queueStates entries).1 spare
        tracked ∧
      (Sees sessionId group queueStates share →
        Sees sessionId group (acknowledgeEntries group sessionId queueStates entries).1 after) ∧
      answers.all fun answer => answer.error.isNone := by
  induction entries generalizing queueStates session share results with
  | nil =>
    refine ⟨session.tracked, share, [], ?_, rfl, tracks, id, rfl⟩
    rw [List.append_nil]
    exact Queue.entriesAlone_nil share .acknowledge results
  | cons entry entries ih =>
    obtain ⟨first, rest⟩ := Bool.and_eq_true_iff.mp (List.all_cons.symm.trans success)
    rw [acknowledgeOne_result sessionId group kept] at first
    have held := has_of_answerTo first
    have inside : entry.wire.coordinate ∈ session.tracked := tracks.has _ held
    obtain ⟨tracked, after, answers, ended, log, last, records, agree⟩ := ih
      (kept.acknowledgeOne sessionId group entry)
      (show Tracks sessionId group _ spare (session.track _).tracked from
        tracks.acknowledgeOne kept held)
      (share.acknowledge (Queue.ackTypeOf entry.ackType.wire) entry.delivery)
      (results ++ [Queue.answerFor session entry.wire]) rest
    refine ⟨tracked, after, Queue.answerFor session entry.wire :: answers, ?_, log, last,
      fun sees => records (sees.acknowledgeOne kept held), ?_⟩
    · rw [List.map_cons, List.length_cons, Queue.entriesAlone_cons share call (asks_wire entry),
        if_pos inside]
      rwa [List.append_assoc, List.singleton_append] at ended
    · simp [Queue.answerFor, inside, agree]

theorem renewAlone (share : ShareGroup) (call : Nat) {entries : List QueueRenewEntry}
    (inside : ∀ entry ∈ entries, entry ∈ session.tracked) (results : List Queue.AckResult) :
    ∃ answers,
      Queue.entriesAlone (session.hold call (.working .renew (entries.map renewWire) results))
          share call entries.length =
        some (session.leave call (.answered (results ++ answers)), share) ∧
      answers.all fun answer => answer.error.isNone := by
  induction entries generalizing results with
  | nil =>
    refine ⟨[], ?_, rfl⟩
    rw [List.append_nil]
    exact Queue.entriesAlone_nil share .renew results
  | cons entry entries ih =>
    obtain ⟨first, rest⟩ := List.forall_mem_cons.mp inside
    have asks : Handler.Asks .renew (renewWire entry) := nofun
    obtain ⟨answers, ended, agree⟩ :=
      ih rest (results ++ [Queue.answerFor session (renewWire entry)])
    refine ⟨Queue.answerFor session (renewWire entry) :: answers, ?_, ?_⟩
    · rw [List.map_cons, List.length_cons, Queue.entriesAlone_cons share call asks,
        Handler.ackType, acknowledge_none, ite_self]
      rwa [List.append_assoc, List.singleton_append] at ended
    · simp [Queue.answerFor, renewWire, first, agree]

end

/-- Both sides after the same calls. -/
structure Follows (sessionId topic group : String) (limit : Nat) (state : MockState)
    (spare : Bool) (client : Client) : Prop where
  inv : state.Inv
  session : ∃ session, Keyed.find MockQueueSession.id state.queueSessions sessionId = some session ∧
    session.topic = topic ∧ session.group = group ∧ session.maxMessages = limit
  maximum : client.object.session.maximum = limit
  groupId : client.object.groupId = group
  topics : client.object.topics = [topic]
  share : spare = false → client.share = state.shareGroup group sessionId
  tracked : Tracks sessionId group state.queueStates spare client.object.session.tracked
  free : client.object.session.lock = none
  idle : ∀ call, client.calls ≤ call → client.object.session.calls call = .idle

variable {result : QueueAcquireResult}

section

variable {topic group : String} {next : MockState} {maximum : Nat}

theorem has_acquired (inv : state.Inv)
    (acquired : MockState.Inv.Acquired state topic group maximum next result)
    (free : ∀ delivery, ¬ Has result.sessionId group state.queueStates delivery)
    (delivery : Coordinate) :
    Has result.sessionId group next.queueStates delivery ↔
      delivery ∈ ((state.available topic group).take maximum).map MockMessage.delivery := by
  have lease := inv.lease_acquired acquired group delivery
  unfold MockState.lease at lease
  rw [Has, lease]
  split
  · rename_i taken
    exact iff_of_true rfl taken.2
  · rename_i untaken
    exact iff_of_false (free delivery) fun member => untaken ⟨rfl, member⟩

theorem shareGroup_acquired (inv : state.Inv)
    (acquired : MockState.Inv.Acquired state topic group maximum next result) :
    (state.shareGroup group result.sessionId).acquire
        (((state.available topic group).take maximum).map MockMessage.delivery) =
      next.shareGroup group result.sessionId := by
  refine eq_shareGroup ?_ fun delivery => ?_
  · rw [acquired.messages]
    rfl
  · have lease := inv.lease_acquired acquired group delivery
    unfold MockState.lease at lease
    rw [lease]
    simp only [ShareGroup.acquire, true_and]
    split
    · simp [Lease.take, MockQueueDisposition.seenBy]
    · rfl

end

/-- A larger part of a list has something that a smaller one has not. -/
theorem exists_mem_take_iff {α : Type*} {items : List α} (distinct : items.Nodup) {few many : Nat}
    (le : few ≤ many) :
    (∃ item ∈ items.take many, item ∉ items.take few) ↔ few < min many items.length := by
  constructor
  · rintro ⟨item, inside, outside⟩
    by_contra less
    rcases min_le_iff.mp (not_lt.mp less) with short | short
    · exact outside (le_antisymm short le ▸ inside)
    · rw [List.take_of_length_le short] at outside
      exact outside (List.mem_of_mem_take inside)
  · intro less
    obtain ⟨below, bound⟩ := lt_min_iff.mp less
    refine ⟨items[few], List.mem_take_iff_getElem.mpr ⟨few, less, rfl⟩, fun inside => ?_⟩
    obtain ⟨index, small, same⟩ := List.mem_take_iff_getElem.mp inside
    have own := (distinct.getElem_inj_iff).mp same
    omega

namespace Follows

variable {sessionId topic group : String} {limit : Nat} {state next : MockState} {spare : Bool}
  {client : Client}

variable (follows : Follows sessionId topic group limit state spare client)
include follows

theorem ended (inv : next.Inv) (sessions : next.queueSessions = state.queueSessions)
    {tracked : Finset Coordinate} {share : ShareGroup} (answer : Queue.Call) {more : Bool}
    (tracks : Tracks sessionId group next.queueStates more tracked)
    (same : more = false → share = next.shareGroup group sessionId) :
    Follows sessionId topic group limit next more
      (client.ended ((client.object.session.track tracked).leave client.calls answer, share)) where
  inv := inv
  session := sessions ▸ follows.session
  maximum := follows.maximum
  groupId := follows.groupId
  topics := follows.topics
  share := same
  tracked := tracks
  free := rfl
  idle := fun call later =>
    (set_ne _ _ (Nat.ne_of_gt later)).trans (follows.idle call (Nat.le_of_succ_le later))

variable {results : List QueueAckResult}

theorem acknowledge {entries : List QueueAckEntry}
    (answered : acknowledgeMock state sessionId entries = .ok (next, results))
    (success : results.all fun result => result.error.isNone) :
    ∃ reached, client.queueHandle .acknowledge (entries.map QueueAckEntry.wire) = some reached ∧
      Follows sessionId topic group limit next spare reached ∧
      (reached.object.session.calls client.calls).succeeded := by
  obtain ⟨session, found, _, own, _⟩ := follows.session
  unfold acknowledgeMock at answered
  simp only [found, own] at answered
  cases answered
  obtain ⟨tracked, after, answers, ended, log, tracks, records, agree⟩ :=
    acknowledgeAlone follows.inv.kept follows.tracked client.share client.calls [] success
  have handled := Client.queueHandle_of_free .acknowledge (entries.map QueueAckEntry.wire)
    follows.free (follows.idle _ le_rfl)
  rw [List.length_map, ended, Option.map_some] at handled
  refine ⟨_, handled, ?_, ?_⟩
  · refine follows.ended (follows.inv.acknowledge group sessionId entries) rfl _ tracks ?_
    intro whole
    have same := follows.share whole
    refine eq_shareGroup (log.trans ?_) (records fun delivery => ?_) <;> rw [same] <;> rfl
  · rw [← agree]
    exact congrArg Queue.Call.succeeded (set_self _ _ _)

theorem renew {entries : List QueueRenewEntry}
    (answered : renewMock state sessionId entries = .ok results)
    (success : results.all fun result => result.error.isNone) :
    ∃ reached, client.queueHandle .renew (entries.map renewWire) = some reached ∧
      Follows sessionId topic group limit state spare reached ∧
      (reached.object.session.calls client.calls).succeeded := by
  obtain ⟨session, found, _, own, _⟩ := follows.session
  unfold renewMock at answered
  simp only [found, own, answerTo_isAcquired sessionId group follows.inv.kept] at answered
  cases answered
  rw [List.all_map, List.all_eq_true] at success
  obtain ⟨answers, ended, agree⟩ := renewAlone client.share client.calls
    (fun entry member => follows.tracked.has entry (has_of_answerTo (success entry member))) []
  have handled := Client.queueHandle_of_free .renew (entries.map renewWire) follows.free
    (follows.idle _ le_rfl)
  rw [List.length_map, ended, Option.map_some] at handled
  refine ⟨_, handled, follows.ended follows.inv rfl _ follows.tracked follows.share, ?_⟩
  rw [← agree]
  exact congrArg Queue.Call.succeeded (set_self _ _ _)

theorem calm_iff (topic' group' : String) (options : AcquireOptions) :
    calm sessionId (state, spare) (.acquire topic' group' options) ↔
      client.object.session.tracked = ∅ := by
  have inv := follows.inv
  simp only [calm, Bool.and_eq_true, Bool.not_eq_true', MockState.holdsNothing, List.all_eq_true,
    decide_eq_true_eq, Finset.eq_empty_iff_forall_notMem]
  constructor
  · rintro ⟨whole, nothing⟩ delivery tracked
    by_cases has : Has sessionId group state.queueStates delivery
    · have acquired := (isAcquired_iff sessionId group inv.kept).mpr has
      simp only [isAcquired, List.any_eq_true, decide_eq_true_eq] at acquired
      obtain ⟨queueState, member, _, own⟩ := acquired
      exact nothing queueState member own
    · have more := follows.tracked.more.mp ⟨delivery, tracked, has⟩
      rw [whole] at more
      exact absurd more Bool.false_ne_true
  · intro untracked
    refine ⟨Bool.eq_false_iff.mpr fun more => ?_, fun queueState member own => ?_⟩
    · obtain ⟨delivery, tracked, _⟩ := follows.tracked.more.mpr more
      exact untracked delivery tracked
    -- A record of the session is one of its group, as no other session has its id.
    · have held : (state.lease queueState.group queueState.delivery).disposition =
          .acquired sessionId := (is_iff inv.kept).mp (Or.inl ⟨queueState, member, rfl, own⟩)
      obtain ⟨_, other, present, named, _, grouped, _⟩ := inv.held _ _ _ held
      obtain ⟨session, found, _, same, _⟩ := follows.session
      have again := inv.sessions.find_of_mem present
      rw [named, found] at again
      cases again
      rw [← grouped, same] at held
      exact untracked queueState.delivery (follows.tracked.has _ held)

variable {options : AcquireOptions}

theorem validateJoin (id : String) (fits : options.max ≠ 0 → effectiveMax options.max = limit) :
    Queue.validateJoin client.object (acquireRequest topic group options id) = .ok () := by
  unfold Queue.validateJoin
  rw [if_neg, if_neg]
  · rintro ⟨given, different⟩
    exact different ((fits given).trans follows.maximum.symm)
  · rintro (groups | topics)
    · exact groups follows.groupId
    · exact topics follows.topics

theorem granted (given : sessionId ≠ "") {topic' group' : String} {options : AcquireOptions}
    {result : QueueAcquireResult}
    (success : acquireWithSession state topic' group' options sessionId = .ok (next, result)) :
    topic' = topic ∧ group' = group ∧ result.sessionId = sessionId ∧
      next.queueSessions = state.queueSessions ∧
      options.lockDurationMs = supportedQueueLockDurationMs ∧
      (options.max ≠ 0 → effectiveMax options.max = limit) := by
  obtain ⟨⟨_, _, lock⟩, granted, _, _⟩ := acquireWithSession_ok success
  obtain ⟨sessions, same, session, found, topics, groups, fits⟩ := mockSessionId_join given granted
  obtain ⟨own, present, named, grouped, limited⟩ := follows.session
  cases found.symm.trans present
  exact ⟨topics.symm.trans named, groups.symm.trans grouped, same, sessions, lock,
    fun nonzero => (fits nonzero).trans limited⟩

variable (broker : Broker)

theorem queueAcquire (id : String) (lock : options.lockDurationMs = supportedQueueLockDurationMs)
    (fits : options.max ≠ 0 → effectiveMax options.max = limit) :
    client.queueAcquire broker (acquireRequest topic group options id) =
      (Queue.pollAlone broker [topic] client.waiting client.share client.calls).map
        client.ended := by
  have checked : Queue.validateLockDuration
      (acquireRequest topic group options id).lockDurationMs = .ok () :=
    if_pos lock
  rw [Client.queueAcquire_of_ok broker checked (follows.validateJoin id fits)
    (follows.idle _ le_rfl), follows.topics]

variable {result : QueueAcquireResult}

theorem acquire (given : sessionId ≠ "") {topic' group' : String} (id : String)
    (success : acquireWithSession state topic' group' options sessionId = .ok (next, result))
    (empty : client.object.session.tracked = ∅) :
    ∃ reached, client.queueAcquire broker (acquireRequest topic' group' options id) = some reached ∧
      Follows sessionId topic group limit next
        (state.spares limit (.acquire topic' group' options)) reached ∧
      (reached.object.session.calls client.calls).succeeded := by
  obtain ⟨whole, _⟩ := Bool.and_eq_true_iff.mp ((follows.calm_iff topic' group' options).mpr empty)
  obtain ⟨rfl, rfl, rfl, sessions, lock, fits⟩ := follows.granted given success
  have acquired := follows.inv.acquired success
  have free : ∀ delivery, ¬ Has result.sessionId group' state.queueStates delivery := by
    intro delivery held
    have tracked := follows.tracked.has delivery held
    rw [empty] at tracked
    exact absurd tracked (Finset.notMem_empty delivery)
  have has := has_acquired follows.inv acquired free
  have le : effectiveMax options.max ≤ limit := by
    obtain ⟨session, found, _, _, limited⟩ := follows.session
    by_cases given : options.max = 0
    · rw [given, ← limited]
      exact follows.inv.limited session (Keyed.find_some found).1
    · exact (fits given).le
  have distinct :=
    follows.inv.distinct_available topic' group' (state.available topic' group').length
  rw [List.take_length] at distinct
  have batch : (client.share.available [topic']).take client.waiting.maximum =
      ((state.available topic' group').map MockMessage.delivery).take limit := by
    rw [follows.share (by simpa using whole), available_shareGroup]
    exact congrArg (List.take · _) follows.maximum
  have more := exists_mem_take_iff distinct le
  rw [List.length_map] at more
  have polled := follows.queueAcquire broker id lock fits
  rw [Queue.pollAlone_of_empty broker [topic'] client.share
    (show client.waiting.lock = none from follows.free)
    (show client.waiting.calls client.calls = .acquireWaiting from set_self _ _ _) empty batch,
    Option.map_some, Client.leave_waiting] at polled
  refine ⟨_, polled, follows.ended (follows.inv.acquire acquired) sessions _ ⟨?_, ?_⟩ ?_, ?_⟩
  · intro delivery own
    rw [has, List.map_take] at own
    exact List.mem_toFinset.mpr ((List.take_subset_take_left _ le) own)
  · simp only [List.mem_toFinset, has, List.map_take, more, MockState.spares, decide_eq_true_eq]
  · intro short
    have same : ((state.available topic' group').map MockMessage.delivery).take limit =
        ((state.available topic' group').take (effectiveMax options.max)).map
          MockMessage.delivery := by
      have less := of_decide_eq_false short
      rw [List.map_take, List.take_eq_take_iff, List.length_map]
      omega
    rw [same, follows.share (by simpa using whole)]
    exact shareGroup_acquired follows.inv acquired
  · exact congrArg Queue.Call.succeeded (set_self _ _ _)

theorem acquire_outstanding (given : sessionId ≠ "") {topic' group' : String} (id : String)
    (success : acquireWithSession state topic' group' options sessionId = .ok (next, result))
    (something : client.object.session.tracked ≠ ∅) :
    ∃ reached, client.queueAcquire broker (acquireRequest topic' group' options id) = some reached ∧
      reached.object.session.calls client.calls = .acquired (.error .outstanding) := by
  obtain ⟨rfl, rfl, _, _, lock, fits⟩ := follows.granted given success
  have polled := follows.queueAcquire broker id lock fits
  rw [Queue.pollAlone_of_outstanding broker [topic'] client.share
    (show client.waiting.lock = none from follows.free)
    (show client.waiting.calls client.calls = .acquireWaiting from set_self _ _ _)
    something, Option.map_some] at polled
  exact ⟨_, polled, set_self _ _ _⟩

/-- A call that succeeds on the mock succeeds on the gateway if it is calm, and fails otherwise. -/
theorem step (given : sessionId ≠ "") (id : String) {call : SessionCall}
    (success : succeedsOnMock sessionId state call) :
    ∃ next, mockStep sessionId state call = some next ∧
      ∃ reached, gatewayStep broker id client call = some reached ∧
        ((reached.object.session.calls client.calls).succeeded ↔
          calm sessionId (state, spare) call) ∧
        (calm sessionId (state, spare) call →
          Follows sessionId topic group limit next (spare || state.spares limit call) reached) := by
  cases call with
  | acquire topic' group' options =>
    cases granted : acquireWithSession state topic' group' options sessionId with
    | error _ => simp [succeedsOnMock, granted] at success
    | ok answer =>
      refine ⟨answer.1, by simp [mockStep, SessionCall.onMock, MockState.step, granted,
        MockState.behind], ?_⟩
      have quiet := follows.calm_iff topic' group' options
      by_cases empty : client.object.session.tracked = ∅
      · obtain ⟨reached, polled, later, succeeded⟩ :=
          follows.acquire broker given id granted empty
        refine ⟨reached, polled, iff_of_true succeeded (quiet.mpr empty), fun calm => ?_⟩
        have whole := (Bool.and_eq_true_iff.mp calm).1
        rw [Bool.not_eq_true'] at whole
        rwa [whole, Bool.false_or]
      · obtain ⟨reached, polled, refused⟩ :=
          follows.acquire_outstanding broker given id granted empty
        refine ⟨reached, polled, ?_, fun calm => absurd (quiet.mp calm) empty⟩
        rw [refused]
        exact iff_of_false Bool.false_ne_true (mt quiet.mp empty)
  | acknowledge entries =>
    cases answered : acknowledgeMock state sessionId entries with
    | error _ => simp [succeedsOnMock, answered] at success
    | ok answer =>
      simp only [succeedsOnMock, answered] at success
      obtain ⟨reached, handled, later, succeeded⟩ := follows.acknowledge answered success
      refine ⟨answer.1, by simp [mockStep, SessionCall.onMock, MockState.step, answered,
        MockState.behind], reached, handled, iff_of_true succeeded rfl, fun _ => ?_⟩
      exact (Bool.or_false spare).symm ▸ later
  | renew entries =>
    cases answered : renewMock state sessionId entries with
    | error _ => simp [succeedsOnMock, answered] at success
    | ok results =>
      simp only [succeedsOnMock, answered] at success
      obtain ⟨reached, handled, later, succeeded⟩ := follows.renew answered success
      refine ⟨state, rfl, reached, handled, iff_of_true succeeded rfl, fun _ => ?_⟩
      exact (Bool.or_false spare).symm ▸ later

/-- What works on the mock works on the gateway as long as it is calm. -/
theorem along_iff (given : sessionId ≠ "") (id : String) {calls : List SessionCall}
    (works : Along (mockStep sessionId)
      (fun state call => succeedsOnMock sessionId state call) state calls) :
    Along (gatewayStep broker id) (fun client call => succeedsOnGateway broker id client call)
        client calls ↔
      Along (spareStep sessionId limit) (fun state call => calm sessionId state call)
        (state, spare) calls := by
  induction calls generalizing state spare client with
  | nil => exact Iff.rfl
  | cons call calls ih =>
    obtain ⟨next, taken, reached, answered, succeeded, later⟩ :=
      follows.step broker given id works.1
    have same : succeedsOnGateway broker id client call ↔ calm sessionId (state, spare) call := by
      rw [succeedsOnGateway, answered]
      exact succeeded
    by_cases quiet : calm sessionId (state, spare) call
    · have remaining := ih (later quiet) (works.2 next taken)
      simp only [Along, same, quiet, answered, spareStep, taken, Option.map_some,
        Option.some.injEq, forall_eq', true_and]
      exact remaining
    · exact iff_of_false (fun along => quiet (same.mp along.1)) fun along => quiet along.1

end Follows

/-! ## A session from its first acquire on -/

theorem sessionName_ne_empty (number : Nat) : sessionName number ≠ "" := by
  intro empty
  exact absurd (String.append_eq_empty_iff.mp empty).1 (by decide)

/-- The first acquire makes the session, which gets the same messages on both sides. -/
theorem follows_create (broker : Broker) (table : Queue.Table) (principal : Principal)
    {topic group : String} {options : AcquireOptions} {before : MockState} (inv : before.Inv)
    (made : acquireWithSession before topic group options "" = .ok (state, result)) :
    ∃ client,
      Client.create broker table principal (before.shareGroup group result.sessionId)
          (acquireRequest topic group options "") = some client ∧
        (client.object.session.calls 0).succeeded ∧
        Follows result.sessionId topic group (effectiveMax options.max) state false client := by
  obtain ⟨⟨grouped, named, lock⟩, granted, _, _⟩ := acquireWithSession_ok made
  obtain ⟨fresh, sessions⟩ := mockSessionId_new granted
  have acquired := inv.acquired made
  have free : ∀ delivery, ¬ Has result.sessionId group before.queueStates delivery := by
    intro delivery held
    obtain ⟨_, session, member, own, _⟩ := inv.held _ _ _ held
    exact inv.fresh member (own.trans fresh)
  have has := has_acquired inv acquired free
  have subscription : Queue.validateSubscription group [topic] = .ok () := by
    simp [Queue.validateSubscription, grouped, Ne.symm named]
  have checked : Queue.validateLockDuration options.lockDurationMs = .ok () := if_pos lock
  have batch : ((before.shareGroup group result.sessionId).available [topic]).take
      (effectiveMax options.max) =
      ((before.available topic group).take (effectiveMax options.max)).map
        MockMessage.delivery := by
    rw [available_shareGroup, List.map_take]
  have created := Client.create_of_ok broker table principal
    (before.shareGroup group result.sessionId)
    (show Queue.validateLockDuration (acquireRequest topic group options "").lockDurationMs = .ok ()
      from checked) subscription batch
  refine ⟨_, created, rfl, ?_⟩
  have member : (⟨result.sessionId, topic, group, effectiveMax options.max⟩ : MockQueueSession) ∈
      state.queueSessions := by
    rw [sessions]
    exact List.mem_append_right _ List.mem_cons_self
  have after := inv.acquire acquired
  exact {
    inv := after
    session := ⟨_, after.sessions.find_of_mem member, rfl, rfl, rfl⟩
    maximum := rfl
    groupId := rfl
    topics := rfl
    share := fun _ => shareGroup_acquired inv acquired
    tracked := ⟨fun delivery own => List.mem_toFinset.mpr ((has delivery).mp own),
      iff_of_false (fun ⟨delivery, taken, foreign⟩ =>
        foreign ((has delivery).mpr (List.mem_toFinset.mp taken))) Bool.false_ne_true⟩
    free := rfl
    idle := fun call later =>
      (set_ne _ _ (Nat.ne_of_gt later)).trans
        (show set (fun _ => Queue.Call.idle) 0 .acquireWaiting call = .idle from
          set_ne _ _ (Nat.ne_of_gt later)) }

/-- A program that works on the mock works on the gateway exactly if it acquires only while its
session has nothing, and no more after a request without a limit that finds a second message. -/
theorem program_works_on_gateway_iff (broker : Broker) (table : Queue.Table)
    (principal : Principal) (id : String) (history : List Call) {before : MockState}
    (run : exec MockState.step .empty history = some before) {topic group : String}
    {options : AcquireOptions} {state : MockState} {result : QueueAcquireResult}
    (made : acquireWithSession before topic group options "" = .ok (state, result))
    (calls : List SessionCall)
    (works : Along (mockStep result.sessionId)
      (fun state call => succeedsOnMock result.sessionId state call) state calls) :
    ∃ client,
      Client.create broker table principal (before.shareGroup group result.sessionId)
          (acquireRequest topic group options "") = some client ∧
        (client.object.session.calls 0).succeeded ∧
        (Along (gatewayStep broker id) (fun client call => succeedsOnGateway broker id client call)
            client calls ↔
          Along (spareStep result.sessionId (effectiveMax options.max))
            (fun state call => calm result.sessionId state call) (state, false) calls) := by
  have inv := inv_exec .empty run
  obtain ⟨client, created, first, follows⟩ := follows_create broker table principal inv made
  obtain ⟨_, granted, _, _⟩ := acquireWithSession_ok made
  have given : result.sessionId ≠ "" := by
    rw [(mockSessionId_new granted).1]
    exact sessionName_ne_empty _
  exact ⟨client, created, first, follows.along_iff broker given id works⟩

/-! ### Two batches -/

def bareBroker : Broker where
  record := fun coordinate =>
    { coordinate, key := none, value := none, headers := [], timestamp := 0, deliveryCount := 1 }
  coordinate_record := fun _ => rfl

/-- Two messages that wait in a topic. -/
def twoJobs : List Call :=
  [.publish "jobs" [1] [], .publish "jobs" [2] []]

def upTo (count : Nat) : AcquireOptions where
  max := count
  lockDurationMs := 30000

def job (offset : Int64) : Coordinate where
  topic := "jobs"
  partition := 0
  offset := offset

def oneAfterAnother : List SessionCall :=
  [.renew [job 0], .acknowledge [{ delivery := job 0, ackType := .accept }],
    .acquire "jobs" "workers" (upTo 1)]

theorem settled_batches_work_on_gateway :
    ∃ before state result client,
      exec MockState.step .empty twoJobs = some before ∧
      acquireWithSession before "jobs" "workers" (upTo 1) "" = .ok (state, result) ∧
      Client.create bareBroker .empty anonymousPrincipal
        (before.shareGroup "workers" result.sessionId)
        (acquireRequest "jobs" "workers" (upTo 1) "") = some client ∧
      Along (gatewayStep bareBroker "id")
        (fun client call => succeedsOnGateway bareBroker "id" client call) client
        oneAfterAnother := by
  obtain ⟨client, created, _, same⟩ := program_works_on_gateway_iff bareBroker .empty
    anonymousPrincipal "id" twoJobs rfl
    (show acquireWithSession _ "jobs" "workers" (upTo 1) "" = .ok (_, _) from rfl) oneAfterAnother
    (by decide)
  exact ⟨_, _, _, client, rfl, rfl, created, same.mpr (by decide)⟩

def FailsOnGateway (history : List Call) (topic group : String) (options : AcquireOptions)
    (calls : List SessionCall) : Prop :=
  ∃ before state result client,
    exec MockState.step .empty history = some before ∧
    acquireWithSession before topic group options "" = .ok (state, result) ∧
    Along (mockStep result.sessionId)
      (fun state call => succeedsOnMock result.sessionId state call) state calls ∧
    Client.create bareBroker .empty anonymousPrincipal (before.shareGroup group result.sessionId)
      (acquireRequest topic group options "") = some client ∧
    (client.object.session.calls 0).succeeded ∧
    ¬ Along (gatewayStep bareBroker "id")
      (fun client call => succeedsOnGateway bareBroker "id" client call) client calls

/-- Without a limit the mock hands out one of the two messages, the gateway both. -/
def unnamedLimit : List SessionCall :=
  [.acknowledge [{ delivery := job 0, ackType := .release },
      { delivery := job 1, ackType := .release }],
    .acquire "jobs" "workers" (upTo 0),
    .acknowledge [{ delivery := job 0, ackType := .accept }],
    .acquire "jobs" "workers" (upTo 0)]

/-- Two acquires in a row work on the mock alone, and so do two that name no limit. -/
theorem second_batch_is_refused :
    FailsOnGateway twoJobs "jobs" "workers" (upTo 1) [.acquire "jobs" "workers" (upTo 1)] ∧
      FailsOnGateway twoJobs "jobs" "workers" (upTo 2) unnamedLimit :=
  ⟨⟨_, _, _, _, rfl, rfl, by decide, rfl, rfl, by decide⟩,
    ⟨_, _, _, _, rfl, rfl, by decide, rfl, rfl, by decide⟩⟩

end KrabkaGateway.Sdk
