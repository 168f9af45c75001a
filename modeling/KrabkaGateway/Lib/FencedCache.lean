import KrabkaGateway.Lib.FencedLog

/-!
# What a writer's cache knows

A node that is ready and still the writer of the log has every live claim in its
cache, apart from the claim of a commit it has no answer for. The argument follows
the node from its fence through the replay to its own writes.
-/

namespace Lib.FencedLog

open ClaimLog

variable {Node Key Value : Type}

/-- The node has not handled this record: it is fetched, or still to be fetched. -/
def Unread (l : Local Key Value) (index : Nat) : Prop :=
  index ∈ l.pending ∨ l.position ≤ index

/-- Nothing the node still reads, and nothing live, is about the key. -/
structure Free (σ : Shared Node Key Value) (l : Local Key Value) (key : Key) : Prop where
  unclaimed : ∀ index value, ¬ Live σ.log key index value
  unread : ∀ index entry, Unread l index → σ.log[index]? = some entry →
    entry.content.key? ≠ some key

structure Holds (σ : Shared Node Key Value) (l : Local Key Value) (key : Key) (value : Value) :
    Prop where
  claimed : ∀ index found, Live σ.log key index found → found = value
  unread : ∀ index entry, Unread l index → σ.log[index]? = some entry →
    entry.content.key? = some key → entry.content = .claim key value

def Cleared (σ : Shared Node Key Value) (l : Local Key Value) : Job Key Value → Prop
  | ⟨key, .preparing⟩ => l.unsure = none → Free σ l key
  | ⟨key, .writing⟩ => Free σ l key
  | ⟨key, .committing value⟩ =>
    (l.landed = false → Free σ l key) ∧ (l.landed = true → Holds σ l key value)
  | _ => True

structure Cached (σ : Shared Node Key Value) (l : Local Key Value) (key : Key) : Prop where
  live : ∀ index value, Live σ.log key index value → l.cache key = some value
  unread : ∀ index entry, Unread l index → σ.log[index]? = some entry →
    entry.content.key? = some key → ∃ value, entry.content = .claim key value ∧
      l.cache key = some value

structure Known (node : Node) (σ : Shared Node Key Value) (l : Local Key Value) : Prop where
  replaying : l.status = .replaying → σ.writer = some node →
    (∀ key index value, Live σ.log key index value → Unread l index ∨ l.cache key = some value) ∧
      ∀ target, l.target = some target → σ.log.length ≤ target
  ready : l.status = .ready → σ.writer = some node → ∀ key, l.unsure ≠ some key → Cached σ l key
  cleared : l.status = .ready → σ.writer = some node → ∀ job, l.job = some job → Cleared σ l job

/-! ## How the log and the reading change -/

section Reading

variable {σ : Shared Node Key Value} {l l' : Local Key Value} {key : Key} {value : Value}

theorem Free.mono (free : Free σ l key) (less : ∀ index, Unread l' index → Unread l index) :
    Free σ l' key :=
  ⟨free.unclaimed, fun index entry unread => free.unread index entry (less index unread)⟩

theorem Holds.mono (holds : Holds σ l key value)
    (less : ∀ index, Unread l' index → Unread l index) : Holds σ l' key value :=
  ⟨holds.claimed, fun index entry unread => holds.unread index entry (less index unread)⟩

theorem Cached.mono (cached : Cached σ l key) (same : l'.cache key = l.cache key)
    (less : ∀ index, Unread l' index → Unread l index) : Cached σ l' key := by
  constructor
  · intro index value live
    rw [same]
    exact cached.live index value live
  · intro index entry unread
    rw [same]
    exact cached.unread index entry (less index unread)

theorem Cleared.mono {job : Job Key Value} (cleared : Cleared σ l job)
    (unsure : l'.unsure = l.unsure) (landed : l'.landed = l.landed)
    (less : ∀ index, Unread l' index → Unread l index) : Cleared σ l' job := by
  obtain ⟨key, phase⟩ := job
  cases phase with
  | preparing => exact fun sure => Free.mono (cleared (unsure ▸ sure)) less
  | writing => exact Free.mono cleared less
  | committing value =>
    exact ⟨fun lost => (cleared.1 (landed ▸ lost)).mono less,
      fun arrived => (cleared.2 (landed ▸ arrived)).mono less⟩
  | lookup | aborting => trivial

variable {entry : Entry Key Value} {index : Nat}

theorem unread_of_read (unread : Unread { l with
      position := l.position + 1
      pending := if entry.gone then l.pending else l.pending ++ [l.position] } index) :
    Unread l index := by
  obtain fetched | later := unread
  · dsimp only at fetched
    split at fetched
    · exact Or.inl fetched
    · obtain old | new := List.mem_append.mp fetched
      · exact Or.inl old
      · exact Or.inr (Nat.le_of_eq (List.mem_singleton.mp new).symm)
  · exact Or.inr (Nat.le_of_succ_le later)

theorem unread_read (found : σ.log[l.position]? = some entry) {there : Entry Key Value}
    (present : σ.log[index]? = some there) (kept : there.gone = false) (unread : Unread l index) :
    Unread { l with
      position := l.position + 1
      pending := if entry.gone then l.pending else l.pending ++ [l.position] } index := by
  obtain fetched | later := unread
  · left
    dsimp only
    split
    · exact fetched
    · exact List.mem_append_left _ fetched
  · by_cases first : index = l.position
    · subst first
      rw [found, Option.some.injEq] at present
      subst present
      left
      simp [kept]
    · right
      dsimp only
      omega

theorem unread_of_tail {first : Nat} {rest : List Nat} (next : l.pending = first :: rest)
    {cache : Key → Option Value}
    (unread : Unread { l with pending := rest, cache := cache } index) : Unread l index := by
  obtain fetched | later := unread
  · exact Or.inl (next ▸ List.mem_cons_of_mem _ fetched)
  · exact Or.inr later

end Reading

section Log

variable {σ : Shared Node Key Value} {l : Local Key Value} {key : Key} {value : Value}

theorem Free.discard (free : Free σ l key) (index : Nat) :
    Free { σ with log := ClaimLog.discard σ.log index } l key := by
  constructor
  · exact fun other value live => free.unclaimed other value live.of_discard
  · intro other entry unread found
    obtain ⟨before, was, content, _⟩ := getElem?_of_discard found
    rw [← content]
    exact free.unread other before unread was

theorem Holds.discard (holds : Holds σ l key value) (index : Nat) :
    Holds { σ with log := ClaimLog.discard σ.log index } l key value := by
  constructor
  · exact fun other value live => holds.claimed other value live.of_discard
  · intro other entry unread found
    obtain ⟨before, was, content, _⟩ := getElem?_of_discard found
    rw [← content]
    exact holds.unread other before unread was

theorem Cached.discard (cached : Cached σ l key) (index : Nat) :
    Cached { σ with log := ClaimLog.discard σ.log index } l key := by
  constructor
  · exact fun other value live => cached.live other value live.of_discard
  · intro other entry unread found
    obtain ⟨before, was, content, _⟩ := getElem?_of_discard found
    rw [← content]
    exact cached.unread other before unread was

theorem Cleared.discard {job : Job Key Value} (cleared : Cleared σ l job) (index : Nat) :
    Cleared { σ with log := ClaimLog.discard σ.log index } l job := by
  obtain ⟨key, phase⟩ := job
  cases phase with
  | preparing => exact fun sure => (cleared sure).discard index
  | writing => exact Free.discard cleared index
  | committing value =>
    exact ⟨fun lost => (cleared.1 lost).discard index,
      fun arrived => (cleared.2 arrived).discard index⟩
  | lookup | aborting => trivial

theorem Free.holds_record (free : Free σ l key) (data : List (Key × Nat)) :
    Holds { σ with inflight := none, log := record σ.log key value, data := data } l key value := by
  constructor
  · intro index found live
    obtain ⟨_, same⟩ | ⟨different, _⟩ := Live.of_record live
    · exact same
    · exact absurd rfl different
  · intro index entry unread found same
    rw [getElem?_record] at found
    split at found
    · rw [← Option.some.inj found]
    · exact absurd same (free.unread index entry unread found)

/-- A new claim of another key changes nothing for this one. -/
theorem Cached.record {other : Key} (cached : Cached σ l key) (different : key ≠ other)
    (value : Value) (data : List (Key × Nat)) :
    Cached { σ with inflight := none, log := ClaimLog.record σ.log other value, data := data } l
      key := by
  constructor
  · intro index found live
    obtain ⟨same, _⟩ | ⟨_, old⟩ := Live.of_record live
    · exact absurd same different
    · exact cached.live index found old
  · intro index entry unread found same
    rw [getElem?_record] at found
    split at found
    · rw [← Option.some.inj found, Content.key?_claim, Option.some.injEq] at same
      exact absurd same.symm different
    · exact cached.unread index entry unread found same

end Log

/-! ## Known claims along the moves -/

namespace Known

variable {node : Node} {σ σ' : Shared Node Key Value} {l l' : Local Key Value} {kind : Kind}

theorem of_status (away : l.status = .absent ∨ l.status = .prepared) : Known node σ l := by
  refine ⟨?_, ?_, ?_⟩ <;> intro status <;> simp [status] at away

theorem of_writer (fenced : σ.writer ≠ some node) : Known node σ l :=
  ⟨fun _ writer => absurd writer fenced, fun _ writer => absurd writer fenced,
    fun _ writer => absurd writer fenced⟩

variable (known : Known node σ l)
include known

/-- Only the log, the writer and what the node reads matter. -/
theorem transport (log : σ'.log = σ.log) (writer : σ'.writer = some node → σ.writer = some node) :
    Known node σ' l := by
  have free : ∀ key, Free σ l key → Free σ' l key := fun key free =>
    ⟨log ▸ free.unclaimed, log ▸ free.unread⟩
  have holds : ∀ key value, Holds σ l key value → Holds σ' l key value := fun key value holds =>
    ⟨log ▸ holds.claimed, log ▸ holds.unread⟩
  refine ⟨?_, ?_, ?_⟩
  · rw [log]
    exact fun status current => known.replaying status (writer current)
  · intro status current key sure
    obtain ⟨live, unread⟩ := known.ready status (writer current) key sure
    exact ⟨log ▸ live, log ▸ unread⟩
  · intro status current job busy
    have cleared := known.cleared status (writer current) job busy
    obtain ⟨key, phase⟩ := job
    cases phase with
    | preparing => exact fun sure => free key (cleared sure)
    | writing => exact free key cleared
    | committing value =>
      exact ⟨fun lost => free key (cleared.1 lost),
        fun arrived => holds key value (cleared.2 arrived)⟩
    | lookup | aborting => trivial

theorem discarded (index : Nat) : Known node { σ with log := ClaimLog.discard σ.log index } l := by
  refine ⟨?_, ?_, ?_⟩
  · intro status writer
    obtain ⟨live, target⟩ := known.replaying status writer
    exact ⟨fun key other value found => live key other value found.of_discard,
      by simpa using target⟩
  · exact fun status writer key sure => (known.ready status writer key sure).discard index
  · exact fun status writer job busy => (known.cleared status writer job busy).discard index

theorem foreign {other : Node} (different : node ≠ other) (change : Change other σ σ')
    (writes : ∀ key value, σ.inflight = some (other, key, value) → σ.writer = some other) :
    Known node σ' l := by
  obtain ⟨fenced, _⟩ | ⟨log, writer, _⟩ | ⟨index, rfl⟩ := change.foreign different writes
  · exact of_writer fenced
  · exact known.transport log fun current => writer ▸ current
  · exact known.discarded index

theorem restate (status : l'.status = l.status) (cache : l'.cache = l.cache)
    (unsure : l'.unsure = l.unsure) (landed : l'.landed = l.landed)
    (position : l'.position = l.position) (pending : l'.pending = l.pending)
    (target : ∀ target, l'.target = some target → σ.log.length ≤ target ∨ l.target = some target)
    (job : ∀ job, l'.job = some job → l.job = some job ∨
      (l.status = .ready → σ.writer = some node → Cleared σ l job)) : Known node σ l' := by
  have reading : ∀ index, Unread l' index → Unread l index := by
    intro index unread
    rwa [Unread, position, pending] at unread
  refine ⟨?_, ?_, ?_⟩
  · intro replaying writer
    obtain ⟨live, measured⟩ := known.replaying (status ▸ replaying) writer
    refine ⟨?_, fun bound found => (target bound found).elim id (measured bound)⟩
    intro key index value found
    rw [cache, Unread, position, pending]
    exact live key index value found
  · intro ready writer key sure
    exact (known.ready (status ▸ ready) writer key (unsure ▸ sure)).mono
      (congrFun cache key) reading
  · intro ready writer running busy
    have cleared : Cleared σ l running := (job running busy).elim
      (known.cleared (status ▸ ready) writer running)
      (fun account => account (status ▸ ready) writer)
    exact cleared.mono unsure landed reading

variable {entry : Entry Key Value}

theorem read (found : σ.log[l.position]? = some entry) :
    Known node σ { l with
      position := l.position + 1
      pending := if entry.gone then l.pending else l.pending ++ [l.position] } := by
  refine ⟨?_, ?_, ?_⟩
  · intro status writer
    obtain ⟨live, target⟩ := known.replaying status writer
    refine ⟨?_, target⟩
    intro key index value claim
    exact (live key index value claim).imp_left (unread_read found claim.1 rfl)
  · intro status writer key sure
    exact (known.ready status writer key sure).mono rfl fun index => unread_of_read
  · intro status writer job busy
    exact (known.cleared status writer job busy).mono rfl rfl fun index => unread_of_read

/-- A replay that has reached its target has every live claim. -/
theorem settle (sane : Sane node σ l) {target : Nat} (replaying : l.status = .replaying)
    (measured : l.target = some target) (reached : target ≤ l.position) (handled : l.pending = []) :
    Known node σ { l with status := .ready } := by
  have idle := (sane.fresh (Or.inr replaying)).1
  refine ⟨nofun, ?_, ?_⟩
  · intro status writer key sure
    obtain ⟨live, bound⟩ := known.replaying replaying writer
    have passed : σ.log.length ≤ l.position := Nat.le_trans (bound target measured) reached
    have nothing : ∀ index, index < σ.log.length → ¬ Unread l index := by
      rintro index inside (fetched | later)
      · simp [handled] at fetched
      · omega
    constructor
    · intro index value claim
      exact (live key index value claim).resolve_left (nothing index claim.index_lt)
    · intro index entry unread found
      exact absurd unread (nothing index (List.getElem?_eq_some_iff.mp found).1)
  · intro status writer job busy
    simp [idle] at busy

variable {key : Key}

theorem free_of_miss (ready : l.status = .ready) (writer : σ.writer = some node)
    (sure : l.unsure = none) (absent : l.cache key = none) : Free σ l key := by
  have cached := known.ready ready writer key (by simp [sure])
  constructor
  · intro index value live
    simp [cached.live index value live] at absent
  · intro index entry unread found same
    obtain ⟨value, _, present⟩ := cached.unread index entry unread found same
    simp [present] at absent

/-- A commit that was sent leaves its node unsure of the key. -/
theorem send (value : Value) (handle : Option Handle) (job : l.job = some ⟨key, .writing⟩)
    (sure : l.unsure = none) :
    Known node σ
      { l with
        handle := handle
        unsure := some key
        landed := false
        job := some ⟨key, .committing value⟩ } := by
  refine ⟨known.replaying, ?_, ?_⟩
  · intro status writer other different
    exact (known.ready status writer other (by simp [sure])).mono rfl fun _ => id
  · rintro status writer running ⟨rfl⟩
    have free : Free σ l key := known.cleared status writer _ job
    exact ⟨fun _ => free.mono fun _ => id, nofun⟩

variable {value : Value}

variable (sane : Sane node σ l)
include sane

theorem refuse (handle : Option Handle) (job : l.job = some ⟨key, .committing value⟩)
    (lost : l.landed = false) :
    Known node σ { l with handle := handle, unsure := none, job := some ⟨key, .aborting⟩ } := by
  have unsure := (sane.committing key value job).1
  refine ⟨known.replaying, ?_, ?_⟩
  · intro status writer other _
    by_cases same : other = key
    · subst same
      have free : Free σ l other := (known.cleared status writer _ job).1 lost
      exact ⟨fun index value live => absurd live (free.unclaimed index value),
        fun index entry unread found about => absurd about (free.unread index entry unread found)⟩
    · have elsewhere : l.unsure ≠ some other := by
        rw [unsure]
        exact fun equal => same (Option.some.inj equal).symm
      exact (known.ready status writer other elsewhere).mono rfl fun _ => id
  · rintro status writer running ⟨rfl⟩
    trivial

theorem land (sent : σ.inflight = some (node, key, value)) (data : List (Key × Nat)) :
    Known node { σ with inflight := none, log := record σ.log key value, data := data }
      { l with landed := true } := by
  obtain ⟨_, unsure, lost, same⟩ := sane.inflight key value sent
  refine ⟨?_, ?_, ?_⟩
  · intro status
    have sure := (sane.fresh (Or.inr status)).2
    simp [unsure] at sure
  · intro status writer other different
    have elsewhere : other ≠ key := by
      rintro rfl
      exact different unsure
    have cached := (known.ready status writer other different).record elsewhere value data
    exact cached.mono rfl fun _ => id
  · intro status writer job busy
    obtain ⟨running, phase⟩ := job
    cases phase with
    | preparing =>
      intro sure
      exact absurd (unsure.symm.trans sure) (Option.some_ne_none _)
    | writing =>
      obtain ⟨epoch, handle⟩ := sane.writing running busy
      have sure := sane.unsure_eq_none busy (by simp [handle])
      simp [unsure] at sure
    | committing claimed =>
      obtain ⟨rfl, rfl⟩ := same running claimed busy
      have free : Free σ l running := (known.cleared status writer _ busy).1 lost
      exact ⟨nofun, fun _ => (free.holds_record data).mono fun _ => id⟩
    | lookup | aborting => trivial

variable [DecidableEq Key]

theorem process {index : Nat} {rest : List Nat} (next : l.pending = index :: rest)
    (found : σ.log[index]? = some entry) :
    Known node σ { l with pending := rest, cache := entry.content.apply l.cache } := by
  have first : index ∈ l.pending := next ▸ List.mem_cons_self
  refine ⟨?_, ?_, ?_⟩
  · intro status writer
    obtain ⟨live, target⟩ := known.replaying status writer
    refine ⟨?_, target⟩
    intro key other value claim
    by_cases this : other = index
    · subst this
      right
      rw [claim.1, Option.some.injEq] at found
      subst found
      exact set_self _ _ _
    · obtain unread | cached := live key other value claim
      · left
        obtain fetched | later := unread
        · rw [next, List.mem_cons] at fetched
          exact Or.inl (fetched.resolve_left this)
        · exact Or.inr later
      · by_cases same : entry.content.key? = some key
        · -- The live claim comes after this record, so that it is fetched as well.
          left
          obtain below | later := Nat.lt_or_ge other l.position
          · have fetched := sane.closed index other _ first (claim.le found same) below claim.1 rfl
            rw [next, List.mem_cons] at fetched
            exact Or.inl (fetched.resolve_left this)
          · exact Or.inr later
        · exact Or.inr ((Content.apply_of_key?_ne same _).trans cached)
  · intro status writer key sure
    have cached := known.ready status writer key sure
    have unchanged : entry.content.apply l.cache key = l.cache key := by
      by_cases same : entry.content.key? = some key
      · obtain ⟨value, claim, known⟩ := cached.unread index entry (Or.inl first) found same
        rw [claim, Content.apply, set_self, known]
      · exact Content.apply_of_key?_ne same _
    exact cached.mono unchanged fun other => unread_of_tail next
  · intro status writer job busy
    exact (known.cleared status writer job busy).mono rfl rfl fun other => unread_of_tail next

theorem confirm (handle : Option Handle) (job : l.job = some ⟨key, .committing value⟩)
    (landed : l.landed = true) :
    Known node σ
      { l with handle := handle, cache := set l.cache key (some value), unsure := none,
               job := none } := by
  have unsure := (sane.committing key value job).1
  refine ⟨?_, ?_, nofun⟩
  · intro status
    exact absurd (Or.inr status) (sane.not_fresh job)
  · intro status writer other _
    by_cases same : other = key
    · subst same
      have holds : Holds σ l other value := (known.cleared status writer _ job).2 landed
      constructor
      · intro index found live
        rw [holds.claimed index found live]
        exact set_self _ _ _
      · intro index entry unread found about
        exact ⟨value, holds.unread index entry unread found about, set_self _ _ _⟩
    · have elsewhere : l.unsure ≠ some other := by
        rw [unsure]
        exact fun equal => same (Option.some.inj equal).symm
      exact (known.ready status writer other elsewhere).mono (set_ne _ _ same) fun _ => id

variable [DecidableEq Node]

theorem move (move : Move node σ l kind σ' l')
    (reopens : kind = .reopen → l.status = .ready → σ.writer = some node) : Known node σ' l' := by
  cases move with
  | restart => exact known.restate rfl rfl rfl rfl rfl rfl (fun _ => Or.inr) fun _ => Or.inl
  | init idle => exact of_status (Or.inr rfl)
  | stray =>
    refine known.transport rfl ?_
    simp only [Shared.fence]
    split
    · exact fun _ => by assumption
    · rintro ⟨⟩
  | measure settled =>
    refine known.restate rfl rfl rfl rfl rfl rfl ?_ fun _ => Or.inl
    rintro target ⟨rfl⟩
    exact Or.inl (Nat.le_refl _)
  | replay prepared handled =>
    refine ⟨fun _ _ => ⟨?_, ?_⟩, by rintro ⟨⟩, by rintro ⟨⟩⟩
    · exact fun key index value live => Or.inl (Or.inr (Nat.zero_le _))
    · rintro target ⟨rfl⟩
      exact Nat.le_refl _
  | forget => exact known.restate rfl rfl rfl rfl rfl rfl (by rintro _ ⟨⟩) fun _ => Or.inl
  | read found => exact known.read found
  | process next found => exact known.process sane next found
  | skip _ left | purge left | release left => exact of_status (Or.inl left)
  | settle replaying measured reached handled =>
    exact known.settle sane replaying measured reached handled
  | leave | dismiss => exact of_status (Or.inl rfl)
  | enter idle ready running =>
    refine known.restate rfl rfl rfl rfl rfl rfl (fun _ => Or.inr) ?_
    rintro job ⟨rfl⟩
    exact Or.inr fun _ _ => trivial
  | miss job absent =>
    refine known.restate rfl rfl rfl rfl rfl rfl (fun _ => Or.inr) ?_
    rintro job ⟨rfl⟩
    exact Or.inr fun ready writer sure => known.free_of_miss ready writer sure absent
  | reopen job closed =>
    have fenced : Known node (σ.fence (some node)) l := by
      cases status : l.status with
      | absent => exact of_status (Or.inl status)
      | prepared => exact of_status (Or.inr status)
      | replaying => exact absurd (Or.inr status) (sane.not_fresh job)
      | ready => exact known.transport rfl fun _ => reopens rfl status
    exact fenced.restate rfl rfl rfl rfl rfl rfl (fun _ => Or.inr) fun _ => Or.inl
  | begin job handle =>
    have sure := sane.unsure_eq_none job (by simp [handle])
    refine known.restate rfl rfl rfl rfl rfl rfl (fun _ => Or.inr) ?_
    rintro running ⟨rfl⟩
    exact Or.inr fun ready writer => known.cleared ready writer _ job sure
  | send value job handle =>
    have sure := sane.unsure_eq_none job (by simp [handle])
    split
    · exact (known.send value _ job sure).transport rfl id
    · exact known.send value _ job sure
  | confirm job landed handle => exact known.confirm sane _ job landed
  | refuse job lost handle =>
    split
    · exact (known.refuse sane _ job lost).transport rfl id
    · exact known.refuse sane _ job lost
  | abandon job =>
    refine known.restate rfl rfl rfl rfl rfl rfl (fun _ => Or.inr) ?_
    rintro running ⟨rfl⟩
    exact Or.inr fun _ _ => trivial
  | fail | drop => exact known.restate rfl rfl rfl rfl rfl rfl (fun _ => Or.inr) (by rintro _ ⟨⟩)
  | land sent => exact known.land sane sent _
  | expire => exact known.transport rfl id
  | discard last => exact known.discarded _

end Known

end Lib.FencedLog
