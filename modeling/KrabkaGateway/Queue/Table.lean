import KrabkaGateway.Authz
import KrabkaGateway.Queue.Session

/-!
# The table of queue sessions

The session table of `queue.rs` and its handlers. A call keeps its own reference to
a session after it has looked it up, so a session can be taken off the table while
calls still wait for its consumer: by the sweeper, by a lookup that finds it expired
and by a call whose batch was too large. Session ids are never reused. Time is in
milliseconds.
-/

namespace KrabkaGateway.Queue

open Lib

def sessionIdle : Nat := 60000

def supportedQueueLockDurationMs : Nat := 30000

inductive ConnectError where
  | invalidArgument (message : String)
  | permissionDenied (message : String)
  | failedPrecondition (message : String)
  deriving DecidableEq, Repr

structure AcquireRequest where
  groupId : String
  topics : List String
  maxMessages : Nat
  sessionId : String
  lockDurationMs : Nat
  deriving DecidableEq, Repr

/-- A session with its owner and the time of its last use. `started` lists the calls that have a
reference to it, `settled` those that have returned. The call that made the session is call 0. -/
structure Object where
  principal : Principal
  groupId : String
  topics : List String
  session : Session
  lastUsed : Nat
  closed : Bool
  started : List Nat
  settled : List Nat

/-- `objects` are the sessions that were ever made, `listed` those still in the table. -/
structure Table where
  clock : Nat
  objects : String → Option Object
  listed : String → Bool

/-! ## Checks -/

def validateLockDuration (lockDurationMs : Nat) : Except ConnectError Unit :=
  if lockDurationMs = supportedQueueLockDurationMs then .ok ()
  else .error (.invalidArgument
    ("queue lock_duration_ms must be 30000; per-acquire lock durations are not supported"))

def authorizeQueue {Cache : Type} (authz : GatewayAuthz Cache) (principal : Principal)
    (host : SocketAddr) (groupId : String) (topics : List String) : Except ConnectError Unit :=
  if authorizeResource authz principal host .group groupId .read = .deny then
    .error (.permissionDenied ("Read Group:" ++ groupId))
  else
    match topics.find? fun topic =>
        authorizeResource authz principal host .topic topic .read = .deny with
    | some topic => .error (.permissionDenied ("Read Topic:" ++ topic))
    | none => .ok ()

/-- The checks of `start_session`. -/
def validateSubscription (groupId : String) (topics : List String) : Except ConnectError Unit :=
  if groupId = "" then .error (.invalidArgument "queue group is required")
  else if topics = [] ∨ "" ∈ topics then .error (.invalidArgument "queue topic is required")
  else .ok ()

/-- A later request has to repeat what the session was made for. -/
def validateJoin (object : Object) (request : AcquireRequest) : Except ConnectError Unit :=
  if object.groupId ≠ request.groupId ∨ object.topics ≠ request.topics then
    .error (.invalidArgument "group_id and topics are fixed when a queue session is created")
  else if request.maxMessages ≠ 0 ∧
      (Session.start request.maxMessages).maximum ≠ object.session.maximum then
    .error (.invalidArgument "max_messages is fixed when a queue session is created")
  else .ok ()

/-! ## Table operations -/

namespace Table

def empty : Table where
  clock := 0
  objects := fun _ => none
  listed := fun _ => false

def put (table : Table) (id : String) (object : Object) : Table :=
  { table with objects := set table.objects id (some object) }

def insert (table : Table) (id : String) (object : Object) : Table :=
  { table with
    objects := set table.objects id (some object)
    listed := set table.listed id true }

def unlist (table : Table) (id : String) : Table :=
  { table with listed := set table.listed id false }

def isExpired (table : Table) (object : Object) : Bool :=
  table.clock - object.lastUsed ≥ sessionIdle

/-- The session is in the table and has been idle for too long. -/
def expires (table : Table) (id : String) : Bool :=
  table.listed id && (table.objects id).any table.isExpired

def touched (table : Table) (object : Object) : Object :=
  { object with lastUsed := table.clock }

def get (table : Table) (id : String) (principal : Principal) :
    Table × Except ConnectError Object :=
  let missing : ConnectError := .failedPrecondition "queue session expired; re-acquire"
  if table.expires id then (table.unlist id, .error missing)
  else
    match table.objects id with
    | none => (table, .error missing)
    | some object =>
      if table.listed id = false then (table, .error missing)
      else if object.principal ≠ principal then
        (table, .error (.permissionDenied "queue session belongs to another principal"))
      else (table.put id (table.touched object), .ok (table.touched object))

def begin (table : Table) (id : String) (object : Object) (call : Nat) (action : Session.Action) :
    Option Table := do
  let session ← object.session.step action
  return table.put id { object with session, started := call :: object.started }

/-! ## Steps -/

inductive Action where
  | create (id : String) (request : AcquireRequest) (principal : Principal) (host : SocketAddr)
  | join (call : Nat) (request : AcquireRequest) (principal : Principal)
  | handle (call : Nat) (id : String) (handler : Handler) (entries : List AckEntry)
      (principal : Principal)
  | act (id : String) (action : Session.Action)
  | settle (id : String) (call : Nat)
  | sweep (id : String)
  | close (id : String)
  | tick (elapsed : Nat)

/-- The actions of calls that have started. A consumer that was closed gives no records. -/
def internal (object : Object) : Session.Action → Bool
  | .acquire _ | .handle _ _ _ => false
  | .answer _ (.ok _) => !object.closed
  | _ => true

/-- What a finished call does with the session: it is touched, left or taken off the table. -/
inductive Outcome where
  | touch
  | keep
  | remove
  deriving DecidableEq, Repr

def outcome (object : Object) (call : Nat) : Option Outcome :=
  match object.session.calls call with
  | .acquired (.ok _) => some .touch
  | .acquired (.error .outstanding) => some .keep
  | .acquired (.error (.backend _)) => some (if call = 0 then .remove else .keep)
  | .acquired (.error .limitExceeded) => some .remove
  | .answered _ => some .touch
  | _ => none

variable {Cache : Type}

def newObject (table : Table) (request : AcquireRequest) (principal : Principal) : Object where
  principal := principal
  groupId := request.groupId
  topics := request.topics
  session :=
    { Session.start request.maxMessages with
      calls := set (fun _ => .idle) 0 .acquireWaiting }
  lastUsed := table.clock
  closed := false
  started := [0]
  settled := []

def step (authz : GatewayAuthz Cache) (table : Table) : Action → Option Table
  | .create id request principal host =>
    if request.sessionId ≠ "" ∨ (table.objects id).isSome then none
    else
      match validateLockDuration request.lockDurationMs,
          authorizeQueue authz principal host request.groupId request.topics,
          validateSubscription request.groupId request.topics with
      | .ok (), .ok (), .ok () =>
        some (table.insert id (table.newObject request principal))
      | _, _, _ => some table
  | .join call request principal =>
    match validateLockDuration request.lockDurationMs with
    | .error _ => some table
    | .ok () =>
      match table.get request.sessionId principal with
      | (after, .error _) => some after
      | (after, .ok object) =>
        match validateJoin object request with
        | .error _ => some after
        | .ok () => after.begin request.sessionId object call (.acquire call)
  | .handle call id handler entries principal =>
    match table.get id principal with
    | (after, .error _) => some after
    | (after, .ok object) => after.begin id object call (.handle call handler entries)
  | .act id action =>
    match table.objects id with
    | none => none
    | some object =>
      if internal object action then
        (object.session.step action).map fun session => table.put id { object with session }
      else none
  | .settle id call =>
    match table.objects id with
    | none => none
    | some object =>
      if call ∈ object.settled then none
      else
        let done := { object with settled := call :: object.settled }
        match outcome object call with
        | none => none
        | some .touch => some (table.put id (table.touched done))
        | some .keep => some (table.put id done)
        | some .remove => some ((table.put id done).unlist id)
  | .sweep id => some (if table.expires id then table.unlist id else table)
  | .close id =>
    match table.objects id with
    | none => none
    | some object =>
      if table.listed id = false ∧ object.session.lock = none then
        some (table.put id { object with closed := true })
      else none
  | .tick elapsed => some { table with clock := table.clock + elapsed }

/-! ## When nobody is left behind -/

def removes (table : Table) : Action → Option String
  | .join _ request _ =>
    if request.lockDurationMs = supportedQueueLockDurationMs ∧ table.expires request.sessionId then
      some request.sessionId
    else none
  | .handle _ id _ _ _ => if table.expires id then some id else none
  | .settle id call =>
    if ((table.objects id).bind fun object => outcome object call) = some .remove then some id
    else none
  | .sweep id => if table.expires id then some id else none
  | _ => none

def undisturbed (table : Table) (action : Action) : Bool :=
  match table.removes action with
  | none => true
  | some id =>
    (table.objects id).all fun object =>
      object.started.all fun call => !isAcquiring (object.session.calls call)

structure Inv (table : Table) : Prop where
  session : ∀ id object, table.objects id = some object → object.session.Inv
  acquiring : ∀ id object call, table.objects id = some object →
    isAcquiring (object.session.calls call) → call ∈ object.started ∧ table.listed id = true

namespace Inv

variable {table next : Table}

variable {id : String} {object : Object}

theorem put (inv : table.Inv) (session : object.session.Inv)
    (acquiring : ∀ call, isAcquiring (object.session.calls call) →
      call ∈ object.started ∧ table.listed id = true) : (table.put id object).Inv := by
  constructor
  · intro other found present
    by_cases same : other = id
    · subst same
      simp only [Table.put, set_self, Option.some.injEq] at present
      exact present ▸ session
    · simp only [Table.put, set_ne _ _ same] at present
      exact inv.session other found present
  · intro other found call present busy
    by_cases same : other = id
    · subst same
      simp only [Table.put, set_self, Option.some.injEq] at present
      subst present
      exact acquiring call busy
    · simp only [Table.put, set_ne _ _ same] at present
      exact inv.acquiring other found call present busy

theorem update (inv : table.Inv) {changed : Object} (found : table.objects id = some object)
    (session : changed.session = object.session) (started : changed.started = object.started) :
    (table.put id changed).Inv :=
  inv.put (session ▸ inv.session id object found) fun call busy => by
    rw [started]
    exact inv.acquiring id object call found (session ▸ busy)

theorem unlist (inv : table.Inv) (quiet : ∀ object, table.objects id = some object →
      ∀ call, isAcquiring (object.session.calls call) = false) : (table.unlist id).Inv := by
  refine ⟨inv.session, ?_⟩
  intro other object call found busy
  by_cases same : other = id
  · subst same
    simp [quiet object found call] at busy
  · obtain ⟨started, listed⟩ := inv.acquiring other object call found busy
    exact ⟨started, by simpa [Table.unlist, set_ne _ _ same] using listed⟩

theorem quiet (inv : table.Inv) {action : Action} (removes : table.removes action = some id)
    (calm : table.undisturbed action = true) :
    ∀ object, table.objects id = some object →
      ∀ call, isAcquiring (object.session.calls call) = false := by
  intro object found call
  by_contra busy
  rw [Bool.not_eq_false] at busy
  obtain ⟨started, _⟩ := inv.acquiring id object call found busy
  simp only [undisturbed, removes, found, Option.all_some, List.all_eq_true] at calm
  have silent := calm call started
  simp [busy] at silent

/-- A lookup keeps the invariant if the session it may drop is quiet. -/
theorem get (inv : table.Inv) (id : String) (principal : Principal)
    (quiet : table.expires id = true → ∀ object, table.objects id = some object →
      ∀ call, isAcquiring (object.session.calls call) = false) :
    (table.get id principal).1.Inv := by
  unfold Table.get
  dsimp only
  split
  · rename_i expired
    exact inv.unlist (quiet expired)
  · split
    · exact inv
    · rename_i object found
      split
      · exact inv
      · split
        · exact inv
        · exact inv.update found rfl rfl

end Inv

theorem of_get {table after : Table} {id : String} {principal : Principal} {object : Object}
    (found : table.get id principal = (after, .ok object)) :
    after.objects id = some object ∧ after.listed id = true := by
  unfold Table.get at found
  dsimp only at found
  split at found
  · simp at found
  · split at found
    · simp at found
    · split at found
      · simp at found
      · rename_i listed
        split at found
        · simp at found
        · simp only [Prod.mk.injEq, Except.ok.injEq] at found
          obtain ⟨rfl, rfl⟩ := found
          exact ⟨by simp [put], by simpa [put] using listed⟩

theorem isAcquiring_of_step {session next : Session} {action : Session.Action}
    (taken : session.step action = some next) {call : Nat}
    (busy : isAcquiring (next.calls call) = true) :
    isAcquiring (session.calls call) = true ∨ action = .acquire call := by
  obtain ⟨moved, moves⟩ := Session.moves_of_step taken
  obtain ⟨_, before⟩ | ⟨rfl, now⟩ := Session.eq_or_eq_of_set (congrFun moves.calls call).symm
  · exact Or.inl (before ▸ busy)
  · exact moves.acquiring (now ▸ busy)

namespace Inv

variable {table next : Table}

variable {id : String}

/-- A call starts on a session that is in the table. -/
theorem begin (inv : table.Inv) {object : Object} {call : Nat} {action : Session.Action}
    (found : table.objects id = some object) (listed : table.listed id = true)
    (own : ∀ other, action = .acquire other → other = call)
    (taken : table.begin id object call action = some next) : next.Inv := by
  simp only [Table.begin, Option.bind_eq_bind, Option.bind_eq_some_iff, pure, Option.some.injEq]
    at taken
  obtain ⟨session, stepped, rfl⟩ := taken
  refine inv.put ((inv.session id object found).step stepped) ?_
  intro other busy
  refine ⟨?_, listed⟩
  obtain before | started := isAcquiring_of_step stepped busy
  · exact List.mem_cons_of_mem _ (inv.acquiring id object other found before).1
  · exact own other started ▸ List.mem_cons_self

variable {Cache : Type} {authz : GatewayAuthz Cache}

theorem create (inv : table.Inv) (fresh : table.objects id = none) (request : AcquireRequest)
    (principal : Principal) : (table.insert id (table.newObject request principal)).Inv := by
  have present : ∀ other object,
      set table.objects id (some (table.newObject request principal)) other = some object →
      (other = id ∧ object = table.newObject request principal) ∨
        (other ≠ id ∧ table.objects other = some object) := by
    intro other object found
    by_cases same : other = id
    · subst same
      exact Or.inl ⟨rfl, by simpa [eq_comm] using found⟩
    · rw [set_ne _ _ same] at found
      exact Or.inr ⟨same, found⟩
  constructor
  · intro other object found
    obtain ⟨_, rfl⟩ | ⟨_, old⟩ := present other object found
    · exact (Session.inv_start request.maxMessages).step
        (show (Session.start request.maxMessages).step (.acquire 0) = some _ from rfl)
    · exact inv.session other object old
  · intro other object call found busy
    obtain ⟨rfl, rfl⟩ | ⟨different, old⟩ := present other object found
    · refine ⟨?_, set_self _ _ _⟩
      by_cases first : call = 0
      · simp [first, newObject]
      · simp [newObject, set_ne _ _ first, isAcquiring] at busy
    · obtain ⟨started, listed⟩ := inv.acquiring other object call old busy
      exact ⟨started, by simpa [Table.insert, set_ne _ _ different] using listed⟩

theorem step (inv : table.Inv) {action : Action} (calm : table.undisturbed action = true)
    (taken : table.step authz action = some next) : next.Inv := by
  cases action with
  | create id request principal host =>
    simp only [Table.step] at taken
    split at taken
    · contradiction
    · rename_i fresh
      rw [not_or, Option.not_isSome_iff_eq_none] at fresh
      split at taken <;> simp only [Option.some.injEq] at taken <;> subst taken
      · exact inv.create fresh.2 request principal
      · exact inv
  | join call request principal =>
    simp only [Table.step] at taken
    split at taken
    · simp only [Option.some.injEq] at taken
      exact taken ▸ inv
    · rename_i valid
      have supported : request.lockDurationMs = supportedQueueLockDurationMs := by
        unfold validateLockDuration at valid
        split at valid
        · assumption
        · contradiction
      have kept := inv.get request.sessionId principal fun expired =>
        inv.quiet (by simp [removes, supported, expired]) calm
      split at taken <;> rename_i found <;> rw [found] at kept
      · simp only [Option.some.injEq] at taken
        exact taken ▸ kept
      · obtain ⟨present, listed⟩ := of_get found
        split at taken
        · simp only [Option.some.injEq] at taken
          exact taken ▸ kept
        · refine kept.begin present listed ?_ taken
          rintro other ⟨rfl⟩
          rfl
  | handle call id handler entries principal =>
    simp only [Table.step] at taken
    have kept := inv.get id principal fun expired =>
      inv.quiet (by simp [removes, expired]) calm
    split at taken <;> rename_i found <;> rw [found] at kept
    · simp only [Option.some.injEq] at taken
      exact taken ▸ kept
    · obtain ⟨present, listed⟩ := of_get found
      exact kept.begin present listed (by simp) taken
  | act id action =>
    simp only [Table.step] at taken
    split at taken
    · contradiction
    · rename_i object found
      split at taken
      · rename_i internal
        simp only [Option.map_eq_some_iff] at taken
        obtain ⟨session, stepped, rfl⟩ := taken
        refine inv.put ((inv.session id object found).step stepped) ?_
        intro call busy
        obtain before | started := isAcquiring_of_step stepped busy
        · exact inv.acquiring id object call found before
        · simp [started, Table.internal] at internal
      · contradiction
  | settle id call =>
    simp only [Table.step] at taken
    split at taken
    · contradiction
    · rename_i object found
      split at taken
      · contradiction
      · split at taken <;> simp only [Option.some.injEq, reduceCtorEq] at taken <;> subst taken
        · exact inv.update found rfl rfl
        · exact inv.update found rfl rfl
        · rename_i removed
          have quiet := inv.quiet
            (show table.removes (.settle id call) = some id by simp [removes, found, removed]) calm
          apply Inv.unlist
          · exact inv.update found rfl rfl
          intro changed present
          simp only [Table.put, set_self, Option.some.injEq] at present
          subst present
          exact quiet object found
  | sweep id =>
    simp only [Table.step, Option.some.injEq] at taken
    subst taken
    split
    · rename_i expired
      exact inv.unlist (inv.quiet (by simp [removes, expired]) calm)
    · exact inv
  | close id =>
    simp only [Table.step] at taken
    split at taken
    · contradiction
    · rename_i object found
      split at taken <;> simp only [Option.some.injEq, reduceCtorEq] at taken
      exact taken ▸ inv.update found rfl rfl
  | tick elapsed =>
    simp only [Table.step, Option.some.injEq] at taken
    exact taken ▸ ⟨inv.session, inv.acquiring⟩

end Inv

theorem inv_empty : empty.Inv :=
  ⟨nofun, nofun⟩

/-! ## Acquired batches -/

/-- While no session is dropped under an acquiring call, every batch that is handed out is tracked
by a session in the table when it is recorded. -/
theorem acquired_batch_is_listed {Cache : Type} {authz : GatewayAuthz Cache}
    {actions : List Action} {table next : Table}
    (run : Run.exec (step authz) empty actions = some table)
    (along : Run.Along (step authz) (fun table action => table.undisturbed action = true) empty
      actions)
    {id : String} {call : Nat} {result : Except ConsumerError (List ShareRecord)}
    (taken : table.step authz (.act id (.answer call result)) = some next)
    {object : Object} {records : List ShareRecord} (found : next.objects id = some object)
    (acquired : object.session.calls call = .acquired (.ok records)) :
    next.listed id = true ∧
      object.session.tracked = (records.map ShareRecord.coordinate).toFinset := by
  have inv : table.Inv :=
    Run.exec_preserves Inv (fun _ _ _ inv calm taken => inv.step calm taken) inv_empty along run
  simp only [step] at taken
  split at taken
  · contradiction
  · rename_i before present
    split at taken
    · simp only [Option.map_eq_some_iff] at taken
      obtain ⟨session, stepped, rfl⟩ := taken
      simp only [put, set_self, Option.some.injEq] at found
      subst found
      have polling : before.session.calls call = .polling := by
        simp only [Session.step] at stepped
        split at stepped
        · assumption
        · contradiction
      refine ⟨(inv.acquiring id before call present (by simp [polling, isAcquiring])).2, ?_⟩
      have protocol := Session.protocol_of_inv (inv.session id before present) stepped
      obtain old | ⟨tracked, _⟩ := protocol.acquires call records acquired
      · simp [polling] at old
      · exact tracked
    · contradiction

def jobsRequest (sessionId : String) : AcquireRequest where
  groupId := "workers"
  topics := ["jobs"]
  maxMessages := 1
  sessionId := sessionId
  lockDurationMs := 30000

/-- One call makes a session and polls. -/
def oneCall : List Action :=
  [.create "s" (jobsRequest "") anonymousPrincipal unknownHost, .act "s" (.lock 0),
    .act "s" (.admission 0)]

/-- A second call waits for the consumer when the first one is given more than it asked for, and
gets the consumer after the session is off the table. -/
def secondCall : List Action :=
  oneCall ++ [.join 1 (jobsRequest "s") anonymousPrincipal,
    .act "s" (.answer 0 (.ok [Session.jobRecord 0, Session.jobRecord 1])), .settle "s" 0,
    .act "s" (.lock 1), .act "s" (.admission 1)]

theorem acquired_batch_of_one_call :
    ∃ table next object, Run.exec (step allowAll) empty oneCall = some table ∧
      table.step allowAll (.act "s" (.answer 0 (.ok [Session.jobRecord 0]))) = some next ∧
      next.objects "s" = some object ∧ next.listed "s" = true ∧
      object.session.tracked = ([Session.jobRecord 0].map ShareRecord.coordinate).toFinset := by
  refine ⟨_, _, _, rfl, rfl, rfl, ?_⟩
  exact acquired_batch_is_listed (show Run.exec (step allowAll) empty oneCall = some _ from rfl)
    (by decide) (show step allowAll _ (.act "s" (.answer 0 (.ok [Session.jobRecord 0]))) = some _
      from rfl) rfl rfl

/-- The second call gets a message under a session id that names nothing any more. -/
theorem second_call_left_behind :
    ∃ table next object, Run.exec (step allowAll) empty secondCall = some table ∧
      table.step allowAll (.act "s" (.answer 1 (.ok [Session.jobRecord 2]))) = some next ∧
      next.objects "s" = some object ∧
      object.session.calls 1 = .acquired (.ok [Session.jobRecord 2]) ∧
      next.listed "s" = false :=
  ⟨_, _, _, rfl, rfl, rfl, rfl, rfl⟩

end Table

end KrabkaGateway.Queue
