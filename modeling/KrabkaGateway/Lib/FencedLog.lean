import KrabkaGateway.Lib.ClaimLog

/-!
# A claim log with fenced writers

Nodes take turns as the writer of one claim log. A node that initialises its
handle fences every older handle. It then replays the log into a cache, and once it
has caught up it writes a claim for a key its cache does not have. A commit that
was sent may land before its node learns of it, or without its node ever learning
of it. Nodes may go on without noticing that they are fenced.

`Move` lists what one node can do to the log and to its own part of the state. A
`Kind` marks the moves whose side conditions decide what is safe.
-/

namespace Lib.FencedLog

open ClaimLog

variable {Node Key Value : Type}

inductive HandleState where
  | clean
  | busy
  | unresolved
  deriving DecidableEq, Repr

/-- The right to write in one epoch. -/
structure Handle where
  epoch : Nat
  state : HandleState
  deriving DecidableEq, Repr

/-- What a node knows of the log: nothing, nothing since it fenced the others, what it has read
since then, everything. -/
inductive Status where
  | absent
  | prepared
  | replaying
  | ready
  deriving DecidableEq, Repr

inductive Phase (Value : Type) where
  | lookup
  | preparing
  | writing
  | committing (value : Value)
  | aborting
  deriving DecidableEq, Repr

/-- The one write a node has under way. -/
structure Job (Key Value : Type) where
  key : Key
  phase : Phase Value
  deriving DecidableEq, Repr

/-- A node's part of the state. `unsure` is the key of a commit whose result the node does not
know, `landed` the answer on its way to the node, `pending` the records it has fetched. -/
structure Local (Key Value : Type) where
  handle : Option Handle
  status : Status
  position : Nat
  pending : List Nat
  target : Option Nat
  cache : Key → Option Value
  unsure : Option Key
  landed : Bool
  restart : Bool
  job : Option (Job Key Value)

/-- The log and its fencing state. `writer` is the node that initialised last, `inflight` a commit
that may still land, and `data` the claims that have landed. -/
structure Shared (Node Key Value : Type) where
  epoch : Nat
  writer : Option Node
  inflight : Option (Node × Key × Value)
  log : List (Entry Key Value)
  data : List (Key × Nat)

inductive Kind where
  | init
  | stray
  | reopen
  | miss
  | other
  deriving DecidableEq, Repr

section

variable [DecidableEq Node] [DecidableEq Key]

/-- Fence every older handle and settle what was in flight. -/
def Shared.fence (shared : Shared Node Key Value) (writer : Option Node) :
    Shared Node Key Value :=
  { shared with epoch := shared.epoch + 1, writer := writer, inflight := none }

variable (node : Node) (σ : Shared Node Key Value) (l : Local Key Value) in
/-- One move of `node`. -/
inductive Move : Kind → Shared Node Key Value → Local Key Value → Prop where
  | restart : Move .other σ { l with restart := true }
  | init (idle : l.job = none) : Move .init (σ.fence (some node))
        { l with handle := some ⟨σ.epoch + 1, .clean⟩, status := .prepared, unsure := none }
  | stray : Move .stray (σ.fence (if σ.writer = some node then some node else none)) l
  | measure (settled : l.status ≠ .prepared) : Move .other σ { l with target := some σ.log.length }
  | replay (prepared : l.status = .prepared) (handled : l.pending = []) : Move .other σ
        { l with status := .replaying, position := 0, target := some σ.log.length }
  | forget : Move .other σ { l with target := none }
  | read {entry} (found : σ.log[l.position]? = some entry) : Move .other σ
        { l with
          position := l.position + 1
          pending := if entry.gone then l.pending else l.pending ++ [l.position] }
  | process {index rest entry} (next : l.pending = index :: rest)
      (found : σ.log[index]? = some entry) :
      Move .other σ { l with pending := rest, cache := entry.content.apply l.cache }
  | skip {index rest} (next : l.pending = index :: rest) (left : l.status = .absent) :
      Move .other σ { l with pending := rest }
  | settle {target} (replaying : l.status = .replaying) (measured : l.target = some target)
      (reached : target ≤ l.position) (handled : l.pending = []) :
      Move .other σ { l with status := .ready }
  | leave (target : Option Nat) : Move .other σ { l with status := .absent, target := target }
  | dismiss (idle : l.job = none) : Move .other σ { l with handle := none, status := .absent }
  | purge (left : l.status = .absent) : Move .other σ { l with cache := fun _ => none }
  | release (left : l.status = .absent) (idle : l.job = none) :
      Move .other σ { l with handle := none }
  | enter {key} (idle : l.job = none) (ready : l.status = .ready)
      (running : l.restart = false) :
      Move .other σ { l with job := some ⟨key, .lookup⟩ }
  | miss {key} (job : l.job = some ⟨key, .lookup⟩) (absent : l.cache key = none) :
      Move .miss σ { l with job := some ⟨key, .preparing⟩ }
  | reopen {key} (job : l.job = some ⟨key, .preparing⟩) (closed : l.handle = none) :
      Move .reopen (σ.fence (some node))
        { l with handle := some ⟨σ.epoch + 1, .clean⟩ }
  | begin {key epoch} (job : l.job = some ⟨key, .preparing⟩)
      (handle : l.handle = some ⟨epoch, .clean⟩) :
      Move .other σ { l with handle := some ⟨epoch, .busy⟩, job := some ⟨key, .writing⟩ }
  | send {key epoch} (value : Value) (job : l.job = some ⟨key, .writing⟩)
      (handle : l.handle = some ⟨epoch, .busy⟩) :
      Move .other (if epoch = σ.epoch then { σ with inflight := some (node, key, value) } else σ)
        { l with
          handle := some ⟨epoch, .unresolved⟩
          unsure := some key
          landed := false
          job := some ⟨key, .committing value⟩ }
  | confirm {key value epoch} (job : l.job = some ⟨key, .committing value⟩)
      (landed : l.landed = true) (handle : l.handle = some ⟨epoch, .unresolved⟩) :
      Move .other σ
        { l with
          handle := some ⟨epoch, .clean⟩
          cache := set l.cache key (some value)
          unsure := none
          job := none }
  | refuse {key value epoch} (job : l.job = some ⟨key, .committing value⟩)
      (lost : l.landed = false) (handle : l.handle = some ⟨epoch, .unresolved⟩) :
      Move .other
        (if σ.inflight.any (fun sent => sent.1 = node) then { σ with inflight := none } else σ)
        { l with
          handle := some ⟨epoch, .busy⟩
          unsure := none
          job := some ⟨key, .aborting⟩ }
  | abandon {key phase} (job : l.job = some ⟨key, phase⟩) :
      Move .other σ { l with job := some ⟨key, .aborting⟩ }
  | fail {job} (restart : Bool) (busy : l.job = some job)
      (resolved : ∀ handle, l.handle = some handle → handle.state = .unresolved →
        (l.restart || restart) = true) :
      Move .other σ { l with handle := none, restart := l.restart || restart, job := none }
  | drop : Move .other σ { l with job := none }
  | land {key value} (sent : σ.inflight = some (node, key, value)) : Move .other
        { σ with
          inflight := none
          log := record σ.log key value
          data := σ.data ++ [(key, σ.log.length)] }
        { l with landed := true }
  | expire : Move .other { σ with inflight := none } l
  | discard {index} (last : Discardable σ.log index) :
      Move .other { σ with log := ClaimLog.discard σ.log index } l

/-- How a move of `node` looks from the other nodes. -/
inductive Change (node : Node) : Shared Node Key Value → Shared Node Key Value → Prop where
  | same {σ} : Change node σ σ
  | fence {σ writer} (own : writer = some node ∨ writer = none) : Change node σ (σ.fence writer)
  | send {σ key value} (current : σ.writer = some node) :
      Change node σ { σ with inflight := some (node, key, value) }
  | clear {σ} : Change node σ { σ with inflight := none }
  | land {σ key value} (sent : σ.inflight = some (node, key, value)) :
      Change node σ
        { σ with
          inflight := none
          log := record σ.log key value
          data := σ.data ++ [(key, σ.log.length)] }
  | discard {σ index} (last : Discardable σ.log index) :
      Change node σ { σ with log := ClaimLog.discard σ.log index }

end

/-- A change of another node leaves `node` without the topic and without a commit on its way,
leaves the log and the writer as they are, or discards an entry. -/
theorem Change.foreign {node other : Node} {σ σ' : Shared Node Key Value} (different : node ≠ other)
    (change : Change other σ σ')
    (writes : ∀ key value, σ.inflight = some (other, key, value) → σ.writer = some other) :
    (σ'.writer ≠ some node ∧ ∀ key value, σ'.inflight ≠ some (node, key, value)) ∨
      (σ'.log = σ.log ∧ σ'.writer = σ.writer ∧ ∀ key value,
        σ'.inflight = some (node, key, value) → σ.inflight = some (node, key, value)) ∨
      ∃ index, σ' = { σ with log := ClaimLog.discard σ.log index } := by
  cases change with
  | same => exact Or.inr (Or.inl ⟨rfl, rfl, fun _ _ => id⟩)
  | fence own =>
    refine Or.inl ⟨?_, by rintro key value ⟨⟩⟩
    rintro ⟨⟩
    simp only [Option.some.injEq, reduceCtorEq, or_false] at own
    exact different own
  | send current =>
    refine Or.inl ⟨fun writer => different (Option.some.inj (writer.symm.trans current)), ?_⟩
    rintro key value ⟨⟩
    exact different rfl
  | clear => exact Or.inr (Or.inl ⟨rfl, rfl, by rintro key value ⟨⟩⟩)
  | land sent =>
    refine Or.inl ⟨fun writer => ?_, by rintro key value ⟨⟩⟩
    exact different (Option.some.inj (writer.symm.trans (writes _ _ sent)))
  | discard last => exact Or.inr (Or.inr ⟨_, rfl⟩)

/-! ## What no discipline is needed for -/

/-- Handles, commits and fetched records fit together. -/
structure Sane (node : Node) (σ : Shared Node Key Value) (l : Local Key Value) : Prop where
  current : ∀ handle, l.handle = some handle →
    handle.epoch ≤ σ.epoch ∧ (handle.epoch = σ.epoch → σ.writer = some node)
  inflight : ∀ key value, σ.inflight = some (node, key, value) →
    σ.writer = some node ∧ l.unsure = some key ∧ l.landed = false ∧
      ∀ job sent, l.job = some ⟨job, .committing sent⟩ → job = key ∧ sent = value
  unsure : ∀ key, l.unsure = some key →
    (∃ epoch, l.handle = some ⟨epoch, .unresolved⟩) ∨
      (l.job = none ∧ (l.restart = true ∨ l.status ≠ .ready))
  fresh : l.status = .prepared ∨ l.status = .replaying → l.job = none ∧ l.unsure = none
  writing : ∀ key, l.job = some ⟨key, .writing⟩ → ∃ epoch, l.handle = some ⟨epoch, .busy⟩
  committing : ∀ key value, l.job = some ⟨key, .committing value⟩ →
    l.unsure = some key ∧ ∃ epoch, l.handle = some ⟨epoch, .unresolved⟩
  bounded : l.position ≤ σ.log.length
  sorted : l.pending.Pairwise (· < ·)
  below : ∀ index ∈ l.pending, index < l.position
  closed : ∀ index later entry, index ∈ l.pending → index ≤ later → later < l.position →
    σ.log[later]? = some entry → entry.gone = false → later ∈ l.pending

namespace Sane

variable {node : Node} {σ σ' : Shared Node Key Value} {l l' : Local Key Value} {kind : Kind}

variable {job : Job Key Value}

variable (sane : Sane node σ l)
include sane

theorem unsure_eq_none (busy : l.job = some job)
    (resolved : ∀ epoch, l.handle ≠ some ⟨epoch, .unresolved⟩) : l.unsure = none := by
  cases unsure : l.unsure with
  | none => rfl
  | some key =>
    obtain ⟨epoch, handle⟩ | ⟨idle, _⟩ := sane.unsure key unsure
    · exact absurd handle (resolved epoch)
    · simp [busy] at idle

theorem not_fresh (busy : l.job = some job) : ¬ (l.status = .prepared ∨ l.status = .replaying) := by
  intro fresh
  simp [(sane.fresh fresh).1] at busy

theorem not_inflight (sure : l.unsure = none) (key : Key) (value : Value) :
    σ.inflight ≠ some (node, key, value) := by
  intro sent
  simp [(sane.inflight key value sent).2.1] at sure

theorem rephase (busy : l.job = some job) (key : Key) {phase : Phase Value}
    (reading : phase ≠ .writing) (undecided : ∀ value, phase ≠ .committing value) :
    Sane node σ { l with job := some ⟨key, phase⟩ } := by
  refine { sane with
    inflight := ?_, unsure := ?_, fresh := fun fresh => absurd fresh (sane.not_fresh busy),
    writing := ?_, committing := ?_ }
  · intro sentKey value sent
    obtain ⟨writer, unsure, landed, _⟩ := sane.inflight sentKey value sent
    refine ⟨writer, unsure, landed, fun other sent running => ?_⟩
    simp only [Option.some.injEq, Job.mk.injEq] at running
    exact absurd running.2 (undecided sent)
  · intro other unsure
    refine Or.inl ((sane.unsure other unsure).resolve_right ?_)
    simp [busy]
  · intro other running
    simp only [Option.some.injEq, Job.mk.injEq] at running
    exact absurd running.2 reading
  · intro other value running
    simp only [Option.some.injEq, Job.mk.injEq] at running
    exact absurd running.2 (undecided value)

theorem writes (key : Key) (value : Value) (sent : σ.inflight = some (node, key, value)) :
    σ.writer = some node :=
  (sane.inflight key value sent).1

theorem fenced (writer : Option Node) : Sane node (σ.fence writer) l := by
  refine { sane with current := ?_, inflight := nofun, closed := sane.closed }
  intro handle held
  have older := (sane.current handle held).1
  refine ⟨Nat.le_succ_of_le older, fun same => ?_⟩
  simp only [Shared.fence] at same
  omega

theorem cleared : Sane node { σ with inflight := none } l :=
  { sane with inflight := nofun }

theorem discarded (index : Nat) : Sane node { σ with log := ClaimLog.discard σ.log index } l := by
  refine { sane with bounded := ?_, closed := ?_ }
  · simpa using sane.bounded
  · intro index later entry member after below found present
    obtain ⟨before, was, _, there⟩ := getElem?_of_discard found
    exact sane.closed index later before member after below was (there present)

theorem recorded (key : Key) (value : Value) (data : List (Key × Nat)) :
    Sane node { σ with inflight := none, log := record σ.log key value, data := data } l := by
  refine { sane with inflight := nofun, bounded := ?_, closed := ?_ }
  · exact Nat.le_trans sane.bounded (by simp)
  · intro index later entry member after below found present
    have old : later ≠ σ.log.length := by
      have bounded := sane.bounded
      omega
    rw [getElem?_record, if_neg old] at found
    exact sane.closed index later entry member after below found present

theorem foreign {other : Node} (different : node ≠ other) (change : Change other σ σ') :
    Sane node σ' l := by
  cases change with
  | same => exact sane
  | fence own => exact sane.fenced _
  | send current =>
    refine { sane with inflight := ?_ }
    intro key value sent
    simp only [Option.some.injEq, Prod.mk.injEq] at sent
    exact absurd sent.1.symm different
  | clear => exact sane.cleared
  | land sent => exact sane.recorded _ _ _
  | discard last => exact sane.discarded _

theorem read {entry : Entry Key Value} (found : σ.log[l.position]? = some entry) :
    Sane node σ { l with
      position := l.position + 1
      pending := if entry.gone then l.pending else l.pending ++ [l.position] } := by
  refine { sane with bounded := ?_, sorted := ?_, below := ?_, closed := ?_ }
  · exact (List.getElem?_eq_some_iff.mp found).1
  · dsimp only
    split
    · exact sane.sorted
    · rw [List.pairwise_append]
      refine ⟨sane.sorted, List.pairwise_singleton _ _, ?_⟩
      intro index member last isLast
      rw [List.mem_singleton.mp isLast]
      exact sane.below index member
  · intro index member
    dsimp only at member ⊢
    split at member
    · exact Nat.lt_succ_of_lt (sane.below index member)
    · obtain old | new := List.mem_append.mp member
      · exact Nat.lt_succ_of_lt (sane.below index old)
      · rw [List.mem_singleton.mp new]
        exact Nat.lt_succ_self _
  · intro index later other member after before present there
    dsimp only at member before ⊢
    by_cases last : later = l.position
    · subst last
      rw [found, Option.some.injEq] at present
      subst present
      simp [there]
    · have earlier : later < l.position := by omega
      have old : index ∈ l.pending := by
        split at member
        · exact member
        · obtain old | new := List.mem_append.mp member
          · exact old
          · rw [List.mem_singleton] at new
            omega
      have kept := sane.closed index later other old after earlier present there
      split
      · exact kept
      · exact List.mem_append_left _ kept

/-- The first fetched record is done with. -/
theorem advance {index : Nat} {rest : List Nat} (next : l.pending = index :: rest)
    (cache : Key → Option Value) : Sane node σ { l with pending := rest, cache := cache } := by
  have sorted := sane.sorted
  rw [next, List.pairwise_cons] at sorted
  refine { sane with sorted := sorted.2, below := ?_, closed := ?_ }
  · intro other member
    exact sane.below other (next ▸ List.mem_cons_of_mem _ member)
  · intro other later entry member after before present there
    have kept := sane.closed other later entry (next ▸ List.mem_cons_of_mem _ member) after before
      present there
    rw [next, List.mem_cons] at kept
    refine kept.resolve_left ?_
    rintro rfl
    exact absurd (sorted.1 other member) (by omega)

variable [DecidableEq Node] [DecidableEq Key]

theorem change (move : Move node σ l kind σ' l') : Change node σ σ' := by
  cases move with
  | init | reopen => exact .fence (Or.inl rfl)
  | stray => exact .fence (by split <;> simp)
  | send value job handle =>
    split
    · rename_i current
      exact .send ((sane.current _ handle).2 current)
    · exact .same
  | refuse job lost handle =>
    split
    · exact .clear
    · exact .same
  | land sent => exact .land sent
  | expire => exact .clear
  | discard last => exact .discard last
  | _ => exact .same

theorem move (move : Move node σ l kind σ' l') : Sane node σ' l' := by
  cases move with
  | restart =>
    refine { sane with unsure := ?_ }
    intro key unsure
    exact (sane.unsure key unsure).imp_right fun ⟨idle, _⟩ => ⟨idle, Or.inl rfl⟩
  | init idle =>
    refine { sane.fenced (some node) with
      current := ?_, inflight := nofun, unsure := nofun, fresh := ?_, writing := ?_,
      committing := ?_ }
    · rintro handle ⟨rfl⟩
      exact ⟨Nat.le_refl _, fun _ => rfl⟩
    · exact fun _ => ⟨idle, rfl⟩
    · simp [idle]
    · simp [idle]
  | stray => exact sane.fenced _
  | measure | forget | purge => exact { sane with }
  | replay prepared handled =>
    have fresh := sane.fresh (Or.inl prepared)
    refine { sane with
      unsure := ?_, fresh := fun _ => fresh, bounded := Nat.zero_le _, below := ?_, closed := ?_ }
    · simp [fresh.2]
    · simp [handled]
    · simp [handled]
  | read found => exact sane.read found
  | process next found => exact sane.advance next _
  | skip next left => exact sane.advance next l.cache
  | settle replaying measured reached handled =>
    have fresh := sane.fresh (Or.inr replaying)
    exact { sane with unsure := by simp [fresh.2], fresh := fun _ => fresh }
  | leave target =>
    refine { sane with unsure := ?_, fresh := by simp }
    intro key unsure
    exact (sane.unsure key unsure).imp_right fun ⟨idle, _⟩ => ⟨idle, Or.inr (by simp)⟩
  | dismiss idle =>
    refine { sane with
      current := nofun, unsure := ?_, fresh := by simp, writing := ?_, committing := ?_ }
    · exact fun _ _ => Or.inr ⟨idle, Or.inr (by simp)⟩
    · simp [idle]
    · simp [idle]
  | release left idle =>
    refine { sane with current := nofun, unsure := ?_, writing := ?_, committing := ?_ }
    · exact fun _ _ => Or.inr ⟨idle, Or.inr (by simp [left])⟩
    · simp [idle]
    · simp [idle]
  | enter idle ready running =>
    refine { sane with
      inflight := ?_, unsure := ?_, fresh := ?_, writing := nofun, committing := nofun }
    · intro key value sent
      obtain ⟨writer, unsure, landed, _⟩ := sane.inflight key value sent
      exact ⟨writer, unsure, landed, nofun⟩
    · intro key unsure
      obtain handle | ⟨_, stopped | elsewhere⟩ := sane.unsure key unsure
      · exact Or.inl handle
      · simp [running] at stopped
      · exact absurd ready elsewhere
    · simp [ready]
  | miss job | abandon job => exact sane.rephase job _ (by simp) (by simp)
  | reopen job closed =>
    have sure := sane.unsure_eq_none job (by simp [closed])
    refine { sane.fenced (some node) with
      current := ?_, inflight := nofun, unsure := by simp [sure], writing := by simp [job],
      committing := by simp [job] }
    rintro handle ⟨rfl⟩
    exact ⟨Nat.le_refl _, fun _ => rfl⟩
  | begin job handle =>
    have sure := sane.unsure_eq_none job (by simp [handle])
    have current := sane.current _ handle
    refine { sane with
      current := ?_,
      inflight := fun key value sent => absurd sent (sane.not_inflight sure key value),
      unsure := by simp [sure], fresh := fun fresh => absurd fresh (sane.not_fresh job),
      writing := fun _ _ => ⟨_, rfl⟩, committing := nofun }
    rintro renamed ⟨rfl⟩
    exact current
  | send value job handle =>
    have sure := sane.unsure_eq_none job (by simp [handle])
    have current := sane.current _ handle
    split
    · rename_i same
      refine { sane with
        current := ?_, inflight := ?_, unsure := fun _ _ => Or.inl ⟨_, rfl⟩,
        fresh := fun fresh => absurd fresh (sane.not_fresh job), writing := nofun,
        committing := ?_ }
      · rintro renamed ⟨rfl⟩
        exact current
      · rintro key sent ⟨rfl⟩
        refine ⟨current.2 same, rfl, rfl, ?_⟩
        rintro other found ⟨rfl⟩
        exact ⟨rfl, rfl⟩
      · rintro key sent ⟨rfl⟩
        exact ⟨rfl, _, rfl⟩
    · refine { sane with
        current := ?_,
        inflight := fun key value sent => absurd sent (sane.not_inflight sure key value),
        unsure := fun _ _ => Or.inl ⟨_, rfl⟩,
        fresh := fun fresh => absurd fresh (sane.not_fresh job), writing := nofun,
        committing := ?_ }
      · rintro renamed ⟨rfl⟩
        exact current
      · rintro key sent ⟨rfl⟩
        exact ⟨rfl, _, rfl⟩
  | confirm job landed handle =>
    have current := sane.current _ handle
    refine { sane with
      current := ?_, inflight := ?_, unsure := nofun, fresh := fun _ => ⟨rfl, rfl⟩,
      writing := nofun, committing := nofun }
    · rintro renamed ⟨rfl⟩
      exact current
    · intro key value sent
      simp [(sane.inflight key value sent).2.2.1] at landed
  | refuse job lost handle =>
    have current := sane.current _ handle
    split
    · refine { sane with
        current := ?_, inflight := nofun, unsure := nofun,
        fresh := fun fresh => absurd fresh (sane.not_fresh job), writing := nofun,
        committing := nofun }
      rintro renamed ⟨rfl⟩
      exact current
    · rename_i none
      refine { sane with
        current := ?_, inflight := ?_, unsure := nofun,
        fresh := fun fresh => absurd fresh (sane.not_fresh job), writing := nofun,
        committing := nofun }
      · rintro renamed ⟨rfl⟩
        exact current
      · intro key value sent
        simp [sent] at none
  | fail restart busy resolved =>
    refine { sane with
      current := nofun, inflight := ?_, unsure := ?_,
      fresh := fun fresh => absurd fresh (sane.not_fresh busy), writing := nofun,
      committing := nofun }
    · intro key value sent
      obtain ⟨writer, unsure, landed, _⟩ := sane.inflight key value sent
      exact ⟨writer, unsure, landed, nofun⟩
    · intro key unsure
      obtain ⟨epoch, handle⟩ | ⟨idle, _⟩ := sane.unsure key unsure
      · exact Or.inr ⟨rfl, Or.inl (resolved _ handle rfl)⟩
      · simp [busy] at idle
  | drop =>
    refine { sane with
      inflight := ?_, unsure := ?_, fresh := fun fresh => ⟨rfl, (sane.fresh fresh).2⟩,
      writing := nofun, committing := nofun }
    · intro key value sent
      obtain ⟨writer, unsure, landed, _⟩ := sane.inflight key value sent
      exact ⟨writer, unsure, landed, nofun⟩
    · intro key unsure
      exact (sane.unsure key unsure).imp_right fun ⟨_, stopped⟩ => ⟨rfl, stopped⟩
  | land sent => exact { sane.recorded _ _ _ with inflight := nofun }
  | expire => exact sane.cleared
  | discard last => exact sane.discarded _

end Sane

end Lib.FencedLog
