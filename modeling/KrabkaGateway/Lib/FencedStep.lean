import KrabkaGateway.Lib.FencedCache

/-!
# Steps of a program over a fenced claim log

A step of a program is no move or one move of a node. What a node does as the writer
keeps what its cache already says: the cache of a ready writer changes only from nothing
to the one claim of a key.
-/

namespace Lib.FencedLog

open ClaimLog

variable {Node Key Value : Type}

/-! ## What the cache keeps -/

/-- A ready writer has nothing cached for the key of its write, and for the key it is unsure of
nothing but the claim it sent. -/
structure Steady (node : Node) (σ : Shared Node Key Value) (l : Local Key Value) : Prop where
  preparing : ∀ key, l.job = some ⟨key, .preparing⟩ → l.unsure = none → l.cache key = none
  writing : ∀ key, l.job = some ⟨key, .writing⟩ → l.cache key = none
  unsure : ∀ key, l.unsure = some key → ∃ value, Holds σ l key value ∧
    (l.cache key = none ∨ l.cache key = some value) ∧
    (∀ sent, σ.inflight = some (node, key, sent) → sent = value) ∧
    ∀ sent, l.job = some ⟨key, .committing sent⟩ → sent = value

def Kept (node : Node) (σ : Shared Node Key Value) (l : Local Key Value) : Prop :=
  l.status = .ready → σ.writer = some node → Steady node σ l

section

variable {node other : Node} {σ σ' : Shared Node Key Value} {l l' : Local Key Value} {kind : Kind}

variable {key : Key}

theorem Free.holds (free : Free σ l key) (value : Value) : Holds σ l key value :=
  ⟨fun index found live => absurd live (free.unclaimed index found),
    fun index entry unread found about => absurd about (free.unread index entry unread found)⟩

/-- A second record of the same claim changes nothing. -/
theorem Holds.record {value : Value} (holds : Holds σ l key value) (data : List (Key × Nat)) :
    Holds { σ with inflight := none, log := ClaimLog.record σ.log key value, data := data } l key
      value := by
  constructor
  · intro index found live
    obtain ⟨_, same⟩ | ⟨different, _⟩ := Live.of_record live
    · exact same
    · exact absurd rfl different
  · intro index entry unread found about
    simp only [getElem?_record] at found
    split at found
    · cases found
      rfl
    · exact holds.unread index entry unread found about

namespace Steady

variable (steady : Steady node σ l)
include steady

/-- Changes of the log's state that leave the log alone. -/
theorem transport (log : σ'.log = σ.log)
    (inflight : ∀ key value, σ'.inflight = some (node, key, value) →
      σ.inflight = some (node, key, value)) : Steady node σ' l := by
  refine { steady with unsure := ?_ }
  intro key unsure
  obtain ⟨value, holds, cache, sent, committing⟩ := steady.unsure key unsure
  refine ⟨value, ⟨log ▸ holds.claimed, log ▸ holds.unread⟩, cache, ?_, committing⟩
  exact fun other arrived => sent other (inflight key other arrived)

theorem reread (job : l'.job = l.job) (cache : l'.cache = l.cache) (unsure : l'.unsure = l.unsure)
    (less : ∀ index, Unread l' index → Unread l index) : Steady node σ l' := by
  constructor
  · rw [job, cache, unsure]
    exact steady.preparing
  · rw [job, cache]
    exact steady.writing
  · rw [job, cache, unsure]
    intro key same
    obtain ⟨value, holds, rest⟩ := steady.unsure key same
    exact ⟨value, holds.mono less, rest⟩

theorem rejob (handle : Option Handle) (restart : Bool) {job : Option (Job Key Value)}
    (preparing : ∀ key, job = some ⟨key, .preparing⟩ → l.unsure = none → l.cache key = none)
    (writing : ∀ key, job = some ⟨key, .writing⟩ → l.cache key = none)
    (undecided : ∀ key value, job ≠ some ⟨key, .committing value⟩) :
    Steady node σ { l with handle := handle, restart := restart, job := job } := by
  refine ⟨preparing, writing, ?_⟩
  intro key unsure
  obtain ⟨value, holds, cache, sent, _⟩ := steady.unsure key unsure
  exact ⟨value, holds.mono fun _ => id, cache, sent, fun other committing =>
    absurd committing (undecided key other)⟩

omit steady in
theorem of_sure (preparing : ∀ key, l.job = some ⟨key, .preparing⟩ → l.cache key = none)
    (writing : ∀ key, l.job = some ⟨key, .writing⟩ → l.cache key = none)
    (sure : l.unsure = none) : Steady node σ l :=
  ⟨fun key job _ => preparing key job, writing, by simp [sure]⟩

theorem discard (index : Nat) : Steady node { σ with log := ClaimLog.discard σ.log index } l := by
  refine { steady with unsure := ?_ }
  intro key unsure
  obtain ⟨value, holds, rest⟩ := steady.unsure key unsure
  exact ⟨value, holds.discard index, rest⟩

variable {key : Key} {value : Value}

theorem land (sane : Sane node σ l) (sent : σ.inflight = some (node, key, value))
    (data : List (Key × Nat)) :
    Steady node { σ with inflight := none, log := record σ.log key value, data := data }
      { l with landed := true } := by
  refine { steady with unsure := ?_ }
  intro other unsure
  obtain rfl : key = other :=
    Option.some.inj ((sane.inflight key value sent).2.1.symm.trans unsure)
  obtain ⟨claimed, holds, cache, inflight, committing⟩ := steady.unsure key unsure
  obtain rfl := inflight value sent
  exact ⟨value, (holds.record data).mono fun _ => id, cache, by rintro _ ⟨⟩, committing⟩

variable [DecidableEq Key]

variable {index : Nat} {rest : List Nat} {entry : Entry Key Value}

theorem apply_cache (known : Known node σ l) (ready : l.status = .ready)
    (writer : σ.writer = some node) (next : l.pending = index :: rest)
    (found : σ.log[index]? = some entry) (cached : l.cache key = some value) :
    entry.content.apply l.cache key = some value := by
  have unread : Unread l index := Or.inl (next ▸ List.mem_cons_self)
  by_cases about : entry.content.key? = some key
  · by_cases unsure : l.unsure = some key
    · obtain ⟨claimed, holds, cache, _⟩ := steady.unsure key unsure
      obtain absent | same := cache
      · cases absent.symm.trans cached
      · rw [holds.unread index entry unread found about, Content.apply, set_self]
        exact same.symm.trans cached
    · obtain ⟨claimed, content, same⟩ :=
        (known.ready ready writer key unsure).unread index entry unread found about
      rw [content, Content.apply, set_self]
      exact same.symm.trans cached
  · rw [Content.apply_of_key?_ne about]
    exact cached

theorem process (known : Known node σ l) (ready : l.status = .ready) (writer : σ.writer = some node)
    (next : l.pending = index :: rest) (found : σ.log[index]? = some entry) :
    Steady node σ { l with pending := rest, cache := entry.content.apply l.cache } := by
  have unread : Unread l index := Or.inl (next ▸ List.mem_cons_self)
  have free : ∀ key, Free σ l key → l.cache key = none →
      entry.content.apply l.cache key = none := by
    intro key free absent
    rw [Content.apply_of_key?_ne (free.unread index entry unread found)]
    exact absent
  refine ⟨?_, ?_, ?_⟩
  · intro key job sure
    exact free key (known.cleared ready writer _ job sure) (steady.preparing key job sure)
  · intro key job
    exact free key (known.cleared ready writer _ job) (steady.writing key job)
  · intro key unsure
    obtain ⟨value, holds, cache, rest⟩ := steady.unsure key unsure
    refine ⟨value, holds.mono fun _ => unread_of_tail next, ?_, rest⟩
    by_cases about : entry.content.key? = some key
    · right
      rw [holds.unread index entry unread found about]
      exact set_self _ _ _
    · simp only [Content.apply_of_key?_ne about]
      exact cache

variable [DecidableEq Node]

theorem cache_move (known : Known node σ l) (sane : Sane node σ l) (ready : l.status = .ready)
    (writer : σ.writer = some node) (move : Move node σ l kind σ' l')
    (cached : l.cache key = some value) : l'.cache key = some value := by
  cases move with
  | process next found => exact steady.apply_cache known ready writer next found cached
  | purge left => cases ready.symm.trans left
  | confirm job landed handle =>
    rename_i own claimed epoch
    by_cases same : key = own
    · subst same
      obtain ⟨known, _, cache, _, committing⟩ :=
        steady.unsure key (sane.committing key claimed job).1
      obtain rfl := committing claimed job
      obtain absent | present := cache
      · cases absent.symm.trans cached
      · exact (set_self _ _ _).trans (present.symm.trans cached)
    · exact (set_ne _ _ same).trans cached
  | _ => exact cached

end Steady

namespace Kept

theorem of_status (away : l.status ≠ .ready) : Kept node σ l :=
  fun ready => absurd ready away

theorem of_writer (fenced : σ.writer ≠ some node) : Kept node σ l :=
  fun _ writer => absurd writer fenced

theorem foreign (kept : Kept node σ l) (different : node ≠ other) (change : Change other σ σ')
    (writes : ∀ key value, σ.inflight = some (other, key, value) → σ.writer = some other) :
    Kept node σ' l := by
  obtain ⟨fenced, _⟩ | ⟨log, writer, inflight⟩ | ⟨index, rfl⟩ := change.foreign different writes
  · exact of_writer fenced
  · exact fun ready current => (kept ready (writer ▸ current)).transport log inflight
  · exact fun ready current => (kept ready current).discard index

variable [DecidableEq Key] [DecidableEq Node]

theorem move (kept : Kept node σ l) (known : Known node σ l) (sane : Sane node σ l)
    (move : Move node σ l kind σ' l')
    (reopens : kind = .reopen → l.status = .ready → σ.writer = some node) : Kept node σ' l' := by
  cases move with
  | restart | measure | forget =>
    exact fun ready writer => (kept ready writer).reread rfl rfl rfl fun _ => id
  | init | replay | leave | dismiss => exact of_status (by rintro ⟨⟩)
  | stray =>
    intro ready writer
    simp only [Shared.fence] at writer
    split at writer
    · rename_i current
      exact (kept ready current).transport rfl (by rintro key value ⟨⟩)
    · cases writer
  | read found =>
    exact fun ready writer => (kept ready writer).reread rfl rfl rfl fun _ => unread_of_read
  | process next found =>
    exact fun ready writer => (kept ready writer).process known ready writer next found
  | skip _ left | purge left | release left => exact of_status (by simp [left])
  | settle replaying measured reached handled =>
    have fresh := sane.fresh (Or.inr replaying)
    intro _ _
    exact .of_sure (by simp [fresh.1]) (by simp [fresh.1]) fresh.2
  | enter | abandon | drop =>
    intro ready writer
    exact (kept ready writer).rejob l.handle l.restart (by rintro _ ⟨⟩) (by rintro _ ⟨⟩)
      (by rintro _ _ ⟨⟩)
  | miss job absent =>
    intro ready writer
    refine (kept ready writer).rejob l.handle l.restart ?_ (by rintro _ ⟨⟩) (by rintro _ _ ⟨⟩)
    rintro key ⟨rfl⟩ _
    exact absent
  | reopen job closed =>
    intro ready _
    have fenced : Steady node (σ.fence (some node)) l :=
      (kept ready (reopens rfl ready)).transport rfl (by rintro key value ⟨⟩)
    exact fenced.reread rfl rfl rfl fun _ => id
  | begin job handle =>
    intro ready writer
    have sure := sane.unsure_eq_none job (by simp [handle])
    refine (kept ready writer).rejob _ l.restart (by rintro _ ⟨⟩) ?_ (by rintro _ _ ⟨⟩)
    rintro key ⟨rfl⟩
    exact (kept ready writer).preparing _ job sure
  | send value job handle =>
    rename_i key epoch
    have sure := sane.unsure_eq_none job (by simp [handle])
    intro ready isWriter
    have writer : σ.writer = some node := by
      revert isWriter
      split <;> exact id
    have free : Free σ l key := known.cleared ready writer _ job
    have sent : Steady node σ { l with
        handle := some ⟨epoch, .unresolved⟩
        unsure := some key
        landed := false
        job := some ⟨key, .committing value⟩ } := by
      refine ⟨by rintro _ ⟨⟩, by rintro _ ⟨⟩, ?_⟩
      rintro _ ⟨rfl⟩
      refine ⟨value, (free.holds value).mono fun _ => id,
        Or.inl ((kept ready writer).writing key job), ?_, ?_⟩
      · exact fun other arrived => absurd arrived (sane.not_inflight sure key other)
      · rintro other ⟨rfl⟩
        rfl
    split
    · refine { sent with unsure := ?_ }
      intro other unsure
      obtain ⟨claimed, holds, cache, _, committing⟩ := sent.unsure other unsure
      refine ⟨claimed, ⟨holds.claimed, holds.unread⟩, cache, ?_, committing⟩
      rintro arrived ⟨⟩
      exact committing value rfl
    · exact sent
  | confirm | refuse =>
    intro ready writer
    exact .of_sure (by rintro _ ⟨⟩) (by rintro _ ⟨⟩) rfl
  | fail restart busy resolved =>
    intro ready writer
    exact (kept ready writer).rejob _ _ (by rintro _ ⟨⟩) (by rintro _ ⟨⟩) (by rintro _ _ ⟨⟩)
  | land sent => exact fun ready writer => (kept ready writer).land sane sent _
  | expire =>
    exact fun ready writer => (kept ready writer).transport rfl (by rintro key value ⟨⟩)
  | discard last => exact fun ready writer => (kept ready writer).discard _

end Kept

end

/-! ## What the writer may claim -/

/-- The key of the writer's transaction, and of a commit in flight, has no live claim. -/
structure Claimable (node : Node) (σ : Shared Node Key Value) (l : Local Key Value) : Prop where
  preparing : σ.writer = some node → ∀ key, l.job = some ⟨key, .preparing⟩ → l.unsure = none →
    ∀ index value, ¬ Live σ.log key index value
  writing : σ.writer = some node → ∀ key, l.job = some ⟨key, .writing⟩ →
    ∀ index value, ¬ Live σ.log key index value
  inflight : ∀ key sent, σ.inflight = some (node, key, sent) →
    ∀ index value, ¬ Live σ.log key index value

namespace Claimable

variable {node other : Node} {σ σ' : Shared Node Key Value} {l l' : Local Key Value} {kind : Kind}

variable (claimable : Claimable node σ l)
include claimable

/-- Changes of the log's state that leave the log alone. -/
theorem transport (log : σ'.log = σ.log) (writer : σ'.writer = some node → σ.writer = some node)
    (inflight : ∀ key sent, σ'.inflight = some (node, key, sent) →
      σ.inflight = some (node, key, sent)) : Claimable node σ' l := by
  refine ⟨?_, ?_, ?_⟩ <;> rw [log]
  · exact fun current => claimable.preparing (writer current)
  · exact fun current => claimable.writing (writer current)
  · exact fun key sent arrived => claimable.inflight key sent (inflight key sent arrived)

theorem rejob (preparing : ∀ key, l'.job = some ⟨key, .preparing⟩ → l'.unsure = none →
      l.job = some ⟨key, .preparing⟩ ∧ l.unsure = none)
    (writing : ∀ key, l'.job = some ⟨key, .writing⟩ → l.job = some ⟨key, .writing⟩) :
    Claimable node σ l' := by
  refine ⟨?_, ?_, claimable.inflight⟩
  · intro writer key job sure
    obtain ⟨before, was⟩ := preparing key job sure
    exact claimable.preparing writer key before was
  · exact fun writer key job => claimable.writing writer key (writing key job)

theorem discard (index : Nat) :
    Claimable node { σ with log := ClaimLog.discard σ.log index } l := by
  refine ⟨?_, ?_, ?_⟩
  · exact fun writer key job sure other value live =>
      claimable.preparing writer key job sure other value live.of_discard
  · exact fun writer key job other value live =>
      claimable.writing writer key job other value live.of_discard
  · exact fun key sent arrived other value live =>
      claimable.inflight key sent arrived other value live.of_discard

theorem foreign (different : node ≠ other) (change : Change other σ σ')
    (writes : ∀ key value, σ.inflight = some (other, key, value) → σ.writer = some other) :
    Claimable node σ' l := by
  obtain ⟨fenced, settled⟩ | ⟨log, writer, inflight⟩ | ⟨index, rfl⟩ :=
    change.foreign different writes
  · exact ⟨fun current => absurd current fenced, fun current => absurd current fenced,
      fun key sent arrived => absurd arrived (settled key sent)⟩
  · exact claimable.transport log (fun current => writer ▸ current) inflight
  · exact claimable.discard index

variable [DecidableEq Key] [DecidableEq Node]

/-- Every move keeps the writer's keys free, if a node reopens its handle only as the writer and
misses a key only while it is ready. -/
theorem move (known : Known node σ l) (sane : Sane node σ l) (move : Move node σ l kind σ' l')
    (reopens : kind = .reopen → σ.writer = some node) (misses : kind = .miss → l.status = .ready) :
    Claimable node σ' l' := by
  cases move with
  | init idle =>
    refine ⟨?_, ?_, by rintro key sent ⟨⟩⟩
    · intro _ key job
      cases idle.symm.trans job
    · intro _ key job
      cases idle.symm.trans job
  | stray =>
    refine claimable.transport rfl ?_ (by rintro key sent ⟨⟩)
    simp only [Shared.fence]
    split
    · exact fun _ => by assumption
    · rintro ⟨⟩
  | enter | confirm | abandon | fail | drop =>
    exact claimable.rejob (by rintro _ ⟨⟩) (by rintro _ ⟨⟩)
  | miss job absent =>
    refine ⟨?_, by rintro _ _ ⟨⟩, claimable.inflight⟩
    rintro writer key ⟨rfl⟩ sure
    exact (known.free_of_miss (misses rfl) writer sure absent).unclaimed
  | reopen job closed =>
    have fenced : Claimable node (σ.fence (some node)) l :=
      claimable.transport rfl (fun _ => reopens rfl) (by rintro key sent ⟨⟩)
    exact fenced.rejob (fun _ job sure => ⟨job, sure⟩) fun _ => id
  | begin job handle =>
    have sure := sane.unsure_eq_none job (by simp [handle])
    refine ⟨by rintro _ _ ⟨⟩, ?_, claimable.inflight⟩
    rintro writer key ⟨rfl⟩
    exact claimable.preparing writer _ job sure
  | send value job handle =>
    split
    · rename_i key epoch current
      have writer := (sane.current _ handle).2 current
      refine ⟨by rintro _ _ ⟨⟩, by rintro _ _ ⟨⟩, ?_⟩
      rintro other sent ⟨⟩
      exact claimable.writing writer key job
    · exact claimable.rejob (by rintro _ ⟨⟩) (by rintro _ ⟨⟩)
  | refuse job lost handle =>
    split
    · have settled : Claimable node { σ with inflight := none } l :=
        claimable.transport rfl id (by rintro key sent ⟨⟩)
      exact settled.rejob (by rintro _ ⟨⟩) (by rintro _ ⟨⟩)
    · exact claimable.rejob (by rintro _ ⟨⟩) (by rintro _ ⟨⟩)
  | land sent =>
    -- The node is unsure of the key that lands, so that it has not begun another write.
    have unsure := (sane.inflight _ _ sent).2.1
    refine ⟨?_, ?_, by rintro key sent ⟨⟩⟩
    · intro _ key job sure
      cases unsure.symm.trans sure
    · intro _ key job
      obtain ⟨epoch, handle⟩ := sane.writing key job
      cases unsure.symm.trans (sane.unsure_eq_none job (by simp [handle]))
  | expire => exact claimable.transport rfl id (by rintro key sent ⟨⟩)
  | discard last => exact claimable.discard _
  | _ => exact claimable.rejob (fun _ job sure => ⟨job, sure⟩) fun _ => id

end Claimable

/-! ## Steps -/

section

variable [DecidableEq Node] [DecidableEq Key]

inductive Step (allowed : Kind → Shared Node Key Value → Local Key Value → Prop) (node : Node)
    (σ : Shared Node Key Value) (l : Local Key Value) :
    Shared Node Key Value → Local Key Value → Prop where
  | stay : Step allowed node σ l σ l
  | move {kind σ' l'} (made : Move node σ l kind σ' l') (fair : allowed kind σ l) :
      Step allowed node σ l σ' l'

def Careful (node : Node) (kind : Kind) (σ : Shared Node Key Value) (l : Local Key Value) : Prop :=
  kind = .reopen → l.status = .ready → σ.writer = some node

structure Disciplined (node : Node) (kind : Kind) (σ : Shared Node Key Value)
    (l : Local Key Value) : Prop where
  reopens : kind = .reopen → σ.writer = some node
  misses : kind = .miss → l.status = .ready

namespace Step

variable {allowed : Kind → Shared Node Key Value → Local Key Value → Prop} {node other : Node}
  {σ σ' : Shared Node Key Value} {l l' m : Local Key Value} {kind : Kind}

theorem of_move {σ₁ : Shared Node Key Value} {l₁ : Local Key Value}
    (made : Move node σ l kind σ₁ l₁) (fair : allowed kind σ l) (shared : σ' = σ₁)
    (own : l' = l₁) : Step allowed node σ l σ' l' := by
  subst shared own
  exact .move made fair

theorem of_eq (shared : σ' = σ) (own : l' = l) : Step allowed node σ l σ' l' := by
  subst shared own
  exact .stay

section Any

variable {key : Key} {value : Value} (step : Step allowed node σ l σ' l') (start : Sane node σ l)

include step

/-- A commit that is under way was under way before, or was being written. -/
theorem committing (after : l'.job = some ⟨key, .committing value⟩) :
    l.job = some ⟨key, .committing value⟩ ∨ l.job = some ⟨key, .writing⟩ := by
  cases step with
  | stay => exact Or.inl after
  | move made fair =>
    cases made with
    | send sent job handle =>
      cases after
      exact Or.inr job
    | _ => first | exact Or.inl after | cases after

theorem mono {weaker : Kind → Shared Node Key Value → Local Key Value → Prop}
    (less : ∀ kind, allowed kind σ l → weaker kind σ l) : Step weaker node σ l σ' l' := by
  cases step with
  | stay => exact .stay
  | move made fair => exact .move made (less _ fair)

include start

theorem sane : Sane node σ' l' := by
  cases step with
  | stay => exact start
  | move made fair => exact start.move made

theorem change : Change node σ σ' := by
  cases step with
  | stay => exact .same
  | move made fair => exact start.change made

theorem cache (known : Known node σ l) (kept : Kept node σ l) (ready : l.status = .ready)
    (writer : σ.writer = some node) (cached : l.cache key = some value) :
    l'.cache key = some value := by
  cases step with
  | stay => exact cached
  | move made fair => exact (kept ready writer).cache_move known start ready writer made cached

variable (different : other ≠ node)

include different

theorem sane_other (sane : Sane other σ m) : Sane other σ' m :=
  sane.foreign different (step.change start)

theorem known_other (known : Known other σ m) : Known other σ' m :=
  known.foreign different (step.change start) start.writes

theorem claimable_other (claimable : Claimable other σ m) : Claimable other σ' m :=
  claimable.foreign different (step.change start) start.writes

theorem kept_other (kept : Kept other σ m) : Kept other σ' m :=
  kept.foreign different (step.change start) start.writes

end Any

theorem known (step : Step (Careful node) node σ l σ' l') (start : Sane node σ l)
    (known : Known node σ l) : Known node σ' l' := by
  cases step with
  | stay => exact known
  | move made fair => exact known.move start made fair

theorem claimable (step : Step (Disciplined node) node σ l σ' l') (start : Sane node σ l)
    (known : Known node σ l) (claimable : Claimable node σ l) : Claimable node σ' l' := by
  cases step with
  | stay => exact claimable
  | move made fair => exact claimable.move known start made fair.reopens fair.misses

theorem kept (step : Step (Careful node) node σ l σ' l') (start : Sane node σ l)
    (known : Known node σ l) (kept : Kept node σ l) : Kept node σ' l' := by
  cases step with
  | stay => exact kept
  | move made fair => exact kept.move known start made fair

end Step

end

end Lib.FencedLog
