import Mathlib.Data.Finset.Card
import Mathlib.Data.Finset.Dedup
import KrabkaGateway.Lib.Run
import KrabkaGateway.Lib.Update
import KrabkaGateway.Types

/-!
# Queue sessions

One share-group session of `queue.rs`. Calls to acquire, acknowledge and renew
share the native consumer behind an async lock, and a set of the coordinates of the
batch that is out. A call waits for the lock, works while it holds it and may be
dropped by its client at every point where it waits. The broker's answers are part
of the actions. The native consumer's `acknowledge` and `commit` are one exchange
about the coordinate of the entry.
-/

namespace KrabkaGateway.Queue

open Lib

/-- The largest batch of a session. -/
def maxMessages : Nat := 500

structure Coordinate where
  topic : String
  partition : Int32
  offset : Int64
  deriving DecidableEq, Repr

structure ShareRecord where
  coordinate : Coordinate
  key : Option Bytes
  value : Option Bytes
  headers : List (String × Option Bytes)
  timestamp : Int64
  deliveryCount : Int16
  deriving DecidableEq, Repr

/-! ## The batch that is out -/

def canPoll (tracked : Finset Coordinate) : Bool :=
  tracked = ∅

def insertBatch (maximum : Nat) : Finset Coordinate → List Coordinate → Finset Coordinate × Bool
  | tracked, [] => (tracked, true)
  | tracked, coordinate :: rest =>
    if tracked.card = maximum ∧ coordinate ∉ tracked then (tracked, false)
    else insertBatch maximum (insert coordinate tracked) rest

def recordBatch (tracked : Finset Coordinate) (coordinates : List Coordinate) (maximum : Nat) :
    Finset Coordinate × Bool :=
  if canPoll tracked then insertBatch maximum tracked coordinates else (tracked, false)

variable {maximum : Nat} {coordinates : List Coordinate}

theorem insertBatch_of_le {tracked : Finset Coordinate}
    (fits : tracked.card + coordinates.length ≤ maximum) :
    insertBatch maximum tracked coordinates = (tracked ∪ coordinates.toFinset, true) := by
  induction coordinates generalizing tracked with
  | nil => simp [insertBatch]
  | cons coordinate rest ih =>
    rw [List.length_cons] at fits
    have room : ¬ (tracked.card = maximum ∧ coordinate ∉ tracked) := by
      rintro ⟨full, _⟩
      omega
    have fitsRest : (insert coordinate tracked).card + rest.length ≤ maximum := by
      have grown := Finset.card_insert_le coordinate tracked
      omega
    rw [insertBatch, if_neg room, ih fitsRest, List.toFinset_cons,
      Finset.insert_union, Finset.union_insert]

theorem recordBatch_of_le (fits : coordinates.length ≤ maximum) :
    recordBatch ∅ coordinates maximum = (coordinates.toFinset, true) := by
  rw [recordBatch, if_pos (by simp [canPoll]), insertBatch_of_le (by simpa using fits),
    Finset.empty_union]

/-! ## Broker verdicts -/

inductive ErrorKind where
  | client
  | coordinatorUnavailable
  | commitInvalid
  | rebalanceFailed
  | server (code : Int)
  | illegalState
  | other
  deriving DecidableEq, Repr

structure ConsumerError where
  kind : ErrorKind
  message : String
  deriving DecidableEq, Repr

/-- The message of an error. How the client library displays one of its own is not part of the
source. -/
inductive Message where
  | text (content : String)
  | display (error : ConsumerError)
  deriving DecidableEq, Repr

structure AckErrorInfo where
  code : Int
  message : Message
  retriable : Bool
  deriving DecidableEq, Repr

def retriableCodes : List Int :=
  [3, 5, 6, 7, 8, 9, 13, 14, 15, 16, 19, 20, 41, 56, 80, 88, 89]

def ackError (error : ConsumerError) : AckErrorInfo where
  code :=
    match error.kind with
    | .server code => code
    | _ => 13
  message := .display error
  retriable :=
    match error.kind with
    | .client | .coordinatorUnavailable | .commitInvalid | .rebalanceFailed => true
    | .server code => retriableCodes.contains code
    | .illegalState | .other => false

def notAcquiredError : AckErrorInfo where
  code := 9
  message := .text "record is not acquired by this session"
  retriable := false

inductive AckType where
  | accept
  | release
  | reject
  deriving DecidableEq, Repr

/-- The acknowledgement a wire value stands for. -/
def ackTypeOf (wire : Int32) : Option AckType :=
  if wire = 1 then some .accept
  else if wire = 2 then some .release
  else if wire = 3 then some .reject
  else none

structure AckEntry where
  coordinate : Coordinate
  ackType : Int32
  deriving DecidableEq, Repr

structure AckResult where
  entry : AckEntry
  error : Option AckErrorInfo
  deriving DecidableEq, Repr

/-- The two handlers that walk through the entries of a request. -/
inductive Handler where
  | acknowledge
  | renew
  deriving DecidableEq, Repr

/-- Whether a verdict ends the tracking of its coordinate. -/
def acknowledgementReleasesTracking (error : Option ConsumerError) (handler : Handler) : Bool :=
  match handler, error with
  | .acknowledge, none => true
  | .acknowledge, some error => error.kind = .server 121
  | .renew, _ => false

/-! ## Calls -/

inductive PollError where
  | outstanding
  | backend (error : ConsumerError)
  | limitExceeded
  deriving DecidableEq, Repr

inductive Call where
  | idle
  | acquireWaiting
  | admitting
  | polling
  | acquired (result : Except PollError (List ShareRecord))
  | entriesWaiting (handler : Handler) (entries : List AckEntry)
  | working (handler : Handler) (entries : List AckEntry) (results : List AckResult)
  | sending (handler : Handler) (entry : AckEntry) (entries : List AckEntry)
      (results : List AckResult)
  | answered (results : List AckResult)
  | cancelled

/-- The call is inside the section that the consumer lock guards. -/
def Call.holdsLock : Call → Bool
  | .admitting | .polling | .working _ _ _ | .sending _ _ _ _ => true
  | _ => false

/-- The call is still under way. -/
def Call.isOpen : Call → Bool
  | .idle | .acquired _ | .answered _ | .cancelled => false
  | _ => true

/-- The call has the session and has not recorded a batch yet. -/
def isAcquiring : Call → Bool
  | .acquireWaiting | .admitting | .polling => true
  | _ => false

structure Session where
  maximum : Nat
  tracked : Finset Coordinate
  lock : Option Nat
  calls : Nat → Call

namespace Session

/-- A new session; the batch size that was asked for is clamped. -/
def start (requested : Nat) : Session where
  maximum := max 1 (min requested maxMessages)
  tracked := ∅
  lock := none
  calls := fun _ => .idle

def hold (session : Session) (call : Nat) (next : Call) : Session :=
  { session with lock := some call, calls := set session.calls call next }

def leave (session : Session) (call : Nat) (next : Call) : Session :=
  { session with lock := none, calls := set session.calls call next }

def track (session : Session) (tracked : Finset Coordinate) : Session :=
  { session with tracked }

inductive Action where
  | acquire (call : Nat)
  | handle (call : Nat) (handler : Handler) (entries : List AckEntry)
  | lock (call : Nat)
  | admission (call : Nat)
  | answer (call : Nat) (result : Except ConsumerError (List ShareRecord))
  | next (call : Nat)
  | reply (call : Nat) (error : Option ConsumerError)
  | cancel (call : Nat)

def endPoll (session : Session) (call : Nat) :
    Except ConsumerError (List ShareRecord) → Session
  | .error error => session.leave call (.acquired (.error (.backend error)))
  | .ok records =>
    if records.length > session.maximum then
      session.leave call (.acquired (.error .limitExceeded))
    else
      let (tracked, recorded) :=
        recordBatch session.tracked (records.map ShareRecord.coordinate) session.maximum
      (session.track tracked).leave call
        (.acquired (if recorded then .ok records else .error .limitExceeded))

def nextEntry (session : Session) (call : Nat) (handler : Handler) (entry : AckEntry)
    (rest : List AckEntry) (results : List AckResult) : Session :=
  if handler = .acknowledge ∧ (ackTypeOf entry.ackType).isNone then
    session.hold call (.working handler rest (results ++ [{
      entry
      error := some (ackError {
        kind := .illegalState, message := "queue acknowledgement type is required" }) }]))
  else if entry.coordinate ∈ session.tracked then
    session.hold call (.sending handler entry rest results)
  else
    session.hold call (.working handler rest (results ++ [{
      entry, error := some notAcquiredError }]))

def step (session : Session) : Action → Option Session
  | .acquire call =>
    match session.calls call with
    | .idle => some { session with calls := set session.calls call .acquireWaiting }
    | _ => none
  | .handle call handler entries =>
    match session.calls call with
    | .idle =>
      some { session with calls := set session.calls call (.entriesWaiting handler entries) }
    | _ => none
  | .lock call =>
    if session.lock = none then
      match session.calls call with
      | .acquireWaiting => some (session.hold call .admitting)
      | .entriesWaiting handler entries => some (session.hold call (.working handler entries []))
      | _ => none
    else none
  | .admission call =>
    match session.calls call with
    | .admitting =>
      if canPoll session.tracked then some (session.hold call .polling)
      else some (session.leave call (.acquired (.error .outstanding)))
    | _ => none
  | .answer call result =>
    match session.calls call with
    | .polling => some (session.endPoll call result)
    | _ => none
  | .next call =>
    match session.calls call with
    | .working _ [] results => some (session.leave call (.answered results))
    | .working handler (entry :: rest) results =>
      some (session.nextEntry call handler entry rest results)
    | _ => none
  | .reply call error =>
    match session.calls call with
    | .sending handler entry rest results =>
      let tracked :=
        if acknowledgementReleasesTracking error handler then
          session.tracked.erase entry.coordinate
        else session.tracked
      some ((session.track tracked).hold call (.working handler rest (results ++ [{
        entry, error := error.map ackError }])))
    | _ => none
  | .cancel call =>
    if (session.calls call).isOpen then
      if (session.calls call).holdsLock then some (session.leave call .cancelled)
      else some { session with calls := set session.calls call .cancelled }
    else none

theorem endPoll_cases (session : Session) (call : Nat)
    (result : Except ConsumerError (List ShareRecord)) :
    ∃ tracked outcome, session.endPoll call result =
      (session.track tracked).leave call (.acquired outcome) := by
  cases result with
  | error error => exact ⟨session.tracked, _, rfl⟩
  | ok records =>
    unfold endPoll
    dsimp only
    split
    · exact ⟨session.tracked, _, rfl⟩
    · exact ⟨_, _, rfl⟩

theorem nextEntry_cases (session : Session) (call : Nat) (handler : Handler) (entry : AckEntry)
    (rest : List AckEntry) (results : List AckResult) :
    (∃ refused, session.nextEntry call handler entry rest results =
      session.hold call (.working handler rest refused)) ∨
    (entry.coordinate ∈ session.tracked ∧
      session.nextEntry call handler entry rest results =
        session.hold call (.sending handler entry rest results)) := by
  unfold nextEntry
  split
  · exact Or.inl ⟨_, rfl⟩
  · split
    · rename_i tracked
      exact Or.inr ⟨tracked, rfl⟩
    · exact Or.inl ⟨_, rfl⟩

/-! ## What holds in every state -/

/-- Calls inside the guarded section hold the lock, and agree with the tracked set. -/
structure Inv (session : Session) : Prop where
  exclusive : ∀ call, (session.calls call).holdsLock → session.lock = some call
  polling : ∀ call, session.calls call = .polling → session.tracked = ∅
  sending : ∀ call handler entry rest results,
    session.calls call = .sending handler entry rest results → entry.coordinate ∈ session.tracked
  positive : 1 ≤ session.maximum
  bounded : session.maximum ≤ maxMessages

theorem inv_start (requested : Nat) : (start requested).Inv := by
  refine ⟨nofun, nofun, nofun, ?_, ?_⟩
  · exact Nat.le_max_left _ _
  · exact Nat.max_le.mpr ⟨by decide, Nat.min_le_right _ _⟩

variable {session next : Session} {action : Action}

def Action.call : Action → Nat
  | .acquire call | .handle call _ _ | .lock call | .admission call | .answer call _ | .next call
  | .reply call _ | .cancel call => call

/-- What a step does: it moves one call, and changes the lock and the tracked set only for a call
that has the lock or finds it free. -/
structure Moves (session : Session) (action : Action) (moved : Call) (next : Session) : Prop where
  maximum : next.maximum = session.maximum
  calls : next.calls = set session.calls action.call moved
  lock : (next.lock = session.lock ∧ next.tracked = session.tracked ∧ moved.holdsLock = false) ∨
    (session.lock = none ∨ (session.calls action.call).holdsLock = true) ∧
      (moved.holdsLock = true → next.lock = some action.call)
  acquiring : isAcquiring moved = true →
    isAcquiring (session.calls action.call) = true ∨ action = .acquire action.call
  polls : moved = .polling → session.tracked = ∅ ∧ next.tracked = session.tracked
  sends : ∀ handler entry rest results, moved = .sending handler entry rest results →
    entry.coordinate ∈ session.tracked ∧ next.tracked = session.tracked
  acquires : ∀ outcome, moved = .acquired outcome →
    (∃ result, action = .answer action.call result ∧ session.calls action.call = .polling) ∨
      outcome = .error .outstanding
  tracked : next.tracked = session.tracked ∨
    (∃ result, action = .answer action.call result ∧ session.calls action.call = .polling) ∨
    ∃ error handler entry rest results, action = .reply action.call error ∧
      session.calls action.call = .sending handler entry rest results ∧
      acknowledgementReleasesTracking error handler = true ∧
      next.tracked = session.tracked.erase entry.coordinate

theorem moves_of_step (taken : session.step action = some next) :
    ∃ moved, Moves session action moved next := by
  cases action with
  | answer call result =>
    simp only [step] at taken
    split at taken <;> simp only [Option.some.injEq, reduceCtorEq] at taken
    rename_i polling
    obtain ⟨tracked, outcome, ended⟩ := session.endPoll_cases call result
    subst taken
    rw [ended]
    refine ⟨_, rfl, rfl, ?_, ?_, ?_, ?_, ?_, ?_⟩ <;>
      simp [Action.call, polling, Call.holdsLock, isAcquiring]
  | next call =>
    simp only [step] at taken
    split at taken <;> simp only [Option.some.injEq, reduceCtorEq] at taken <;> subst taken
    · rename_i working
      refine ⟨_, rfl, rfl, ?_, ?_, ?_, ?_, ?_, ?_⟩ <;>
        simp [Action.call, working, Call.holdsLock, isAcquiring, leave]
    · rename_i handler entry rest results working
      obtain ⟨refused, result⟩ | ⟨tracked, result⟩ :=
        session.nextEntry_cases call handler entry rest results
      all_goals
        rw [result]
        refine ⟨_, rfl, rfl, ?_, ?_, ?_, ?_, ?_, ?_⟩ <;>
          simp [Action.call, working, Call.holdsLock, isAcquiring, hold]
      rintro _ _ _ _ rfl rfl rfl rfl
      exact tracked
  | reply call error =>
    simp only [step] at taken
    split at taken <;> simp only [Option.some.injEq, reduceCtorEq] at taken
    subst taken
    rename_i handler _ _ _ sending
    refine ⟨_, rfl, rfl, ?_, ?_, ?_, ?_, ?_, ?_⟩ <;>
      simp [Action.call, sending, Call.holdsLock, isAcquiring, hold, track]
    by_cases releases : acknowledgementReleasesTracking error handler = true <;> simp [releases]
  | _ =>
    simp only [step] at taken
    repeat' split at taken
    all_goals
      simp only [Option.some.injEq, reduceCtorEq] at taken
    all_goals
      subst taken
      refine ⟨_, rfl, rfl, ?_, ?_, ?_, ?_, ?_, ?_⟩ <;>
        simp_all [Action.call, Call.holdsLock, isAcquiring, hold, leave, canPoll]

theorem eq_or_eq_of_set {calls : Nat → Call} {call other : Nat} {moved current : Call}
    (found : set calls call moved other = current) :
    (other ≠ call ∧ calls other = current) ∨ (other = call ∧ moved = current) := by
  by_cases same : other = call
  · subst same
    exact Or.inr ⟨rfl, by simpa using found⟩
  · exact Or.inl ⟨same, by rwa [set_ne _ _ same] at found⟩

theorem Inv.step (inv : session.Inv) (taken : session.step action = some next) : next.Inv := by
  obtain ⟨moved, moves⟩ := moves_of_step taken
  -- With another call inside the section, the step leaves the lock and the tracked set alone.
  have still : ∀ other, other ≠ action.call → (session.calls other).holdsLock = true →
      next.lock = session.lock ∧ next.tracked = session.tracked := by
    intro other different holds
    have locked := inv.exclusive other holds
    obtain ⟨lock, tracked, _⟩ | ⟨free | own, _⟩ := moves.lock
    · exact ⟨lock, tracked⟩
    · simp [free] at locked
    · exact absurd (Option.some.inj (locked.symm.trans (inv.exclusive _ own))) different
  refine ⟨?_, ?_, ?_, moves.maximum ▸ inv.positive, moves.maximum ▸ inv.bounded⟩
  · intro other holds
    obtain ⟨different, before⟩ | ⟨rfl, now⟩ := eq_or_eq_of_set (congrFun moves.calls other).symm
    · rw [← before] at holds
      rw [(still other different holds).1]
      exact inv.exclusive other holds
    · rw [← now] at holds
      obtain ⟨_, _, away⟩ | ⟨_, locks⟩ := moves.lock
      · simp [away] at holds
      · exact locks holds
  · intro other polling
    obtain ⟨different, before⟩ | ⟨_, now⟩ := eq_or_eq_of_set (moves.calls ▸ polling)
    · rw [(still other different (by rw [before]; rfl)).2]
      exact inv.polling other before
    · rw [(moves.polls now).2, (moves.polls now).1]
  · intro other handler entry rest results sending
    obtain ⟨different, before⟩ | ⟨_, now⟩ := eq_or_eq_of_set (moves.calls ▸ sending)
    · rw [(still other different (by rw [before]; rfl)).2]
      exact inv.sending other handler entry rest results before
    · obtain ⟨listed, same⟩ := moves.sends handler entry rest results now
      rwa [same]

theorem inv_of_run {requested : Nat} {actions : List Action}
    (run : Run.exec step (start requested) actions = some session) : session.Inv :=
  Run.exec_preserves_always Inv (fun _ _ _ inv taken => inv.step taken) (inv_start requested) run

/-! ## The protocol -/

/-- What a step may do to the broker and to the tracked set. -/
structure Protocol (session : Session) (action : Action) (next : Session) : Prop where
  /-- The session polls only while nothing is tracked. -/
  polls : ∀ call, next.calls call = .polling → session.tracked = ∅ ∧ next.tracked = ∅
  /-- A successful acquire leaves exactly its batch tracked. -/
  acquires : ∀ call records, next.calls call = .acquired (.ok records) →
    session.calls call = .acquired (.ok records) ∨
      (next.tracked = (records.map ShareRecord.coordinate).toFinset ∧
        next.tracked.card ≤ next.maximum ∧ next.maximum ≤ maxMessages)
  /-- Only tracked coordinates are acknowledged or renewed. -/
  sends : ∀ call handler entry rest results,
    next.calls call = .sending handler entry rest results → entry.coordinate ∈ session.tracked
  /-- A coordinate is given up only for a verdict on its disposition. -/
  gives : ∀ coordinate ∈ session.tracked, coordinate ∉ next.tracked →
    ∃ call error entry rest results, action = .reply call error ∧
      session.calls call = .sending .acknowledge entry rest results ∧
      entry.coordinate = coordinate ∧
      (error = none ∨ ∃ message, error = some { kind := .server 121, message })
  /-- A batch that fits is always recorded. -/
  records : ∀ call records, action = .answer call (.ok records) →
    records.length ≤ session.maximum →
    (recordBatch session.tracked (records.map ShareRecord.coordinate) session.maximum).2 = true ∧
      next.calls call = .acquired (.ok records)

theorem endPoll_of_le (empty : session.tracked = ∅) (call : Nat) {records : List ShareRecord}
    (fits : records.length ≤ session.maximum) :
    session.endPoll call (.ok records) =
      (session.track (records.map ShareRecord.coordinate).toFinset).leave call
        (.acquired (.ok records)) := by
  have batch : recordBatch session.tracked (records.map ShareRecord.coordinate) session.maximum =
      ((records.map ShareRecord.coordinate).toFinset, true) := by
    rw [empty]
    exact recordBatch_of_le (by simpa using fits)
  simp only [endPoll, batch, if_neg (Nat.not_lt.mpr fits), if_true]

theorem protocol_of_inv (inv : session.Inv) (taken : session.step action = some next) :
    Protocol session action next := by
  obtain ⟨moved, moves⟩ := moves_of_step taken
  have fits : ∀ call records, action = .answer call (.ok records) →
      records.length ≤ session.maximum → session.tracked = ∅ ∧
        next = (session.track (records.map ShareRecord.coordinate).toFinset).leave call
          (.acquired (.ok records)) := by
    rintro call records rfl fits
    simp only [step] at taken
    split at taken <;> simp only [Option.some.injEq, reduceCtorEq] at taken
    rename_i polling
    have empty := inv.polling call polling
    exact ⟨empty, taken ▸ endPoll_of_le empty call fits⟩
  refine ⟨?_, ?_, ?_, ?_, ?_⟩
  · intro call polling
    refine ⟨?_, (inv.step taken).polling call polling⟩
    obtain ⟨_, before⟩ | ⟨_, now⟩ := eq_or_eq_of_set (moves.calls ▸ polling)
    · exact inv.polling call before
    · exact (moves.polls now).1
  · intro call records done
    obtain ⟨_, before⟩ | ⟨own, now⟩ := eq_or_eq_of_set (moves.calls ▸ done)
    · exact Or.inl before
    · right
      obtain ⟨result, answered, polling⟩ | outstanding := moves.acquires _ now
      · rw [answered] at taken
        simp only [step, polling, Option.some.injEq] at taken
        cases result with
        | error error =>
          rw [← taken, own] at done
          simp [endPoll, leave] at done
        | ok found =>
          by_cases small : found.length ≤ session.maximum
          · obtain ⟨empty, after⟩ := fits _ _ answered small
            subst after
            have same : found = records := by
              rw [own] at done
              simpa [leave] using done
            subst same
            refine ⟨rfl, ?_, inv.bounded⟩
            calc (found.map ShareRecord.coordinate).toFinset.card
                ≤ (found.map ShareRecord.coordinate).length := List.toFinset_card_le _
              _ = found.length := List.length_map _
              _ ≤ session.maximum := small
          · rw [← taken, own] at done
            simp [endPoll, leave, Nat.lt_of_not_le small] at done
      · simp at outstanding
  · intro call handler entry rest results sending
    obtain ⟨_, before⟩ | ⟨_, now⟩ := eq_or_eq_of_set (moves.calls ▸ sending)
    · exact inv.sending call handler entry rest results before
    · exact (moves.sends handler entry rest results now).1
  · intro coordinate member gone
    obtain same | ⟨result, _, polling⟩ |
      ⟨error, handler, entry, rest, results, replied, sending, releases, erased⟩ := moves.tracked
    · exact absurd (same ▸ member) gone
    · simp [inv.polling _ polling] at member
    · have about : entry.coordinate = coordinate := by
        by_contra different
        exact gone (erased ▸ Finset.mem_erase.mpr ⟨Ne.symm different, member⟩)
      cases handler with
      | renew => simp [acknowledgementReleasesTracking] at releases
      | acknowledge =>
        refine ⟨_, error, entry, rest, results, replied, sending, about, ?_⟩
        cases error with
        | none => exact Or.inl rfl
        | some error =>
          obtain ⟨kind, message⟩ := error
          simp only [acknowledgementReleasesTracking, decide_eq_true_eq] at releases
          exact Or.inr ⟨message, by rw [releases]⟩
  · intro call records answered small
    obtain ⟨empty, after⟩ := fits call records answered small
    subst after
    refine ⟨?_, by simp [leave]⟩
    rw [empty, recordBatch_of_le (by simpa using small)]

/-- Every step of every run of a session keeps to the protocol. -/
theorem queue_session_protocol (requested : Nat) {actions : List Action} {session next : Session}
    (run : Run.exec step (start requested) actions = some session) {action : Action}
    (taken : session.step action = some next) : Protocol session action next :=
  protocol_of_inv (inv_of_run run) taken

def jobRecord (offset : Int64) : ShareRecord where
  coordinate := { topic := "jobs", partition := 0, offset }
  key := none
  value := none
  headers := []
  timestamp := 0
  deliveryCount := 1

def pollingSession : Session :=
  (({ start 2 with calls := set (start 2).calls 0 .acquireWaiting }).hold 0 .admitting).hold 0
    .polling

theorem queue_session_protocol_of_two_jobs :
    (recordBatch ∅ [(jobRecord 0).coordinate, (jobRecord 1).coordinate] 2).2 = true :=
  ((queue_session_protocol 2
    (show Run.exec step (start 2) [.acquire 0, .lock 0, .admission 0] =
      some pollingSession from rfl)
    (show pollingSession.step (.answer 0 (.ok [jobRecord 0, jobRecord 1])) =
      some _ from rfl)).records
      0 _ rfl (by decide)).1

end Session

end KrabkaGateway.Queue
