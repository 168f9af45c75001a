import KrabkaGateway.Lib.FencedStep

/-!
# What a node holds of a log that is cut

A node holds a key while the key is in its cache, among the records it has fetched,
or in a commit that has landed before its answer. No node is told of a record that is
discarded: what a node holds stays in the log as long as the last claim of a key is
discarded only while the node does not hold the key, for instance while it is detached
from the log.
-/

namespace Lib.ClaimLog

variable {Key Value : Type} [DecidableEq Key]

def Entry.claims (key : Key) (entry : Entry Key Value) : Bool :=
  match entry.content with
  | .claim own _ => own = key
  | _ => false

def retained (log : List (Entry Key Value)) (key : Key) : Bool :=
  log.any fun entry => entry.claims key && !entry.gone

variable {key : Key}

theorem Entry.claims_iff {entry : Entry Key Value} :
    entry.claims key = true ↔ ∃ value, entry.content = .claim key value := by
  unfold Entry.claims
  cases entry.content with
  | claim own value =>
    simp only [decide_eq_true_eq, Content.claim.injEq]
    exact ⟨fun same => ⟨value, same, rfl⟩, fun ⟨_, same, _⟩ => same⟩
  | tombstone | other => simp

variable {log : List (Entry Key Value)}

theorem retained_iff :
    retained log key = true ↔
      ∃ (index : Nat) (entry : Entry Key Value), log[index]? = some entry ∧
        entry.claims key = true ∧ entry.gone = false := by
  rw [retained, List.any_eq_true]
  constructor
  · rintro ⟨entry, member, own⟩
    obtain ⟨index, found⟩ := List.getElem?_of_mem member
    exact ⟨index, entry, found, by simpa using own⟩
  · rintro ⟨index, entry, found, own⟩
    exact ⟨entry, List.mem_of_getElem? found, by simpa using own⟩

theorem retained_record (log : List (Entry Key Value)) (key : Key) (value : Value) :
    retained (record log key value) key = true := by
  simp [retained, record, Entry.claims]

theorem retained_record_of_retained (kept : retained log key = true) (other : Key) (value : Value) :
    retained (record log other value) key = true := by
  rw [retained] at kept
  rw [retained, record, List.any_append, kept, Bool.true_or]

theorem retained_discard {index : Nat} (kept : retained log key = true)
    (other : ∀ entry, log[index]? = some entry → entry.claims key = false) :
    retained (discard log index) key = true := by
  obtain ⟨place, entry, found, own, there⟩ := retained_iff.mp kept
  have different : index ≠ place := by
    rintro rfl
    rw [other entry found] at own
    cases own
  refine retained_iff.mpr ⟨place, entry, ?_, own, there⟩
  rw [getElem?_discard, if_neg different, found]

end Lib.ClaimLog

namespace Lib.FencedLog

open ClaimLog

variable {Node Key Value : Type} [DecidableEq Key]

/-- A commit of the key has landed, and the node still waits for the answer. -/
def Local.awaits (l : Local Key Value) (key : Key) : Bool :=
  match l.job with
  | some ⟨own, .committing _⟩ => l.landed && own = key
  | _ => false

theorem Local.awaits_iff {l : Local Key Value} {key : Key} :
    l.awaits key = true ↔ l.landed = true ∧ ∃ value, l.job = some ⟨key, .committing value⟩ := by
  unfold Local.awaits
  split
  · rename_i job
    simp [job]
  · rename_i others
    simpa using fun _ value job => others key value job

def Local.holds (l : Local Key Value) (log : List (Entry Key Value)) (key : Key) : Bool :=
  (l.cache key).isSome || (l.pending.any fun index => log[index]?.any (Entry.claims key)) ||
    l.awaits key

theorem Local.holds_iff {l : Local Key Value} {log : List (Entry Key Value)} {key : Key} :
    l.holds log key = true ↔ l.cache key ≠ none ∨
      (∃ index ∈ l.pending, ∃ entry, log[index]? = some entry ∧ entry.claims key = true) ∨
      (l.landed = true ∧ ∃ value, l.job = some ⟨key, .committing value⟩) := by
  simp only [Local.holds, Bool.or_eq_true, List.any_eq_true, Option.any_eq_true,
    Option.isSome_iff_ne_none, Local.awaits_iff, or_assoc]

/-- A detached node: it has nothing cached, nothing fetched and no job. -/
theorem Local.not_holds {l : Local Key Value} {key : Key} (forgotten : l.cache key = none)
    (handled : l.pending = []) (idle : l.job = none) (log : List (Entry Key Value)) :
    l.holds log key = false := by
  simp [Local.holds, Local.awaits, forgotten, handled, idle]

def Supported (σ : Shared Node Key Value) (l : Local Key Value) : Prop :=
  ∀ key, l.holds σ.log key = true → retained σ.log key = true

namespace Supported

variable {node : Node} {σ σ' : Shared Node Key Value} {l l' : Local Key Value} {kind : Kind}

theorem of_held (supported : Supported σ l)
    (held : ∀ key, l'.holds σ'.log key = true → l.holds σ.log key = true)
    (kept : ∀ key, l.holds σ.log key = true → retained σ.log key = true →
      retained σ'.log key = true) : Supported σ' l' :=
  fun key holds => kept key (held key holds) (supported key (held key holds))

variable {value : Value} {key : Key}

theorem holds_record (sane : Sane node σ l) {other : Key}
    (holds : l.holds (record σ.log other value) key = true) : l.holds σ.log key = true := by
  rw [Local.holds_iff] at holds ⊢
  refine holds.imp_right (Or.imp_left ?_)
  rintro ⟨index, fetched, entry, found, own⟩
  have inside := Nat.lt_of_lt_of_le (sane.below index fetched) sane.bounded
  rw [getElem?_record, if_neg (Nat.ne_of_lt inside)] at found
  exact ⟨index, fetched, entry, found, own⟩

variable {index : Nat}

theorem holds_discard {log : List (Entry Key Value)}
    (holds : l.holds (ClaimLog.discard log index) key = true) : l.holds log key = true := by
  rw [Local.holds_iff] at holds ⊢
  refine holds.imp_right (Or.imp_left ?_)
  rintro ⟨place, fetched, entry, found, own⟩
  obtain ⟨before, present, content, _⟩ := getElem?_of_discard found
  refine ⟨place, fetched, before, present, ?_⟩
  rw [Entry.claims_iff] at own ⊢
  rwa [content]

variable (supported : Supported σ l)
include supported

theorem foreign [DecidableEq Node] (sane : Sane node σ l) {other : Node}
    (change : Change other σ σ')
    (kept : ∀ key, l.holds σ.log key = true → retained σ.log key = true →
      retained σ'.log key = true) : Supported σ' l := by
  refine supported.of_held ?_ kept
  cases change with
  | land sent => exact fun key => holds_record sane
  | discard last => exact fun key => holds_discard
  | _ => exact fun key => id

variable {entry : Entry Key Value}

/-- A record that is fetched is there, and a record that is handled was fetched. -/
theorem read (found : σ.log[l.position]? = some entry) :
    Supported σ { l with
      position := l.position + 1
      pending := if entry.gone then l.pending else l.pending ++ [l.position] } := by
  intro key holds
  obtain cached | ⟨index, fetched, other, present, own⟩ | landed := Local.holds_iff.mp holds
  · exact supported key (Local.holds_iff.mpr (Or.inl cached))
  · have old (before : index ∈ l.pending) : retained σ.log key = true :=
      supported key (Local.holds_iff.mpr (Or.inr (Or.inl ⟨index, before, other, present, own⟩)))
    dsimp only at fetched
    split at fetched
    · exact old fetched
    · rename_i there
      obtain before | new := List.mem_append.mp fetched
      · exact old before
      · obtain rfl := List.mem_singleton.mp new
        obtain rfl := Option.some.inj (found.symm.trans present)
        exact retained_iff.mpr ⟨_, entry, found, own, Bool.eq_false_iff.mpr there⟩
  · exact supported key (Local.holds_iff.mpr (Or.inr (Or.inr landed)))

theorem process {rest : List Nat} (next : l.pending = index :: rest)
    (found : σ.log[index]? = some entry) :
    Supported σ { l with pending := rest, cache := entry.content.apply l.cache } := by
  intro key holds
  apply supported
  rw [Local.holds_iff] at holds ⊢
  obtain cached | ⟨place, fetched, other, present, own⟩ | landed := holds
  · by_cases about : entry.claims key = true
    · exact Or.inr (Or.inl ⟨index, next ▸ List.mem_cons_self, entry, found, about⟩)
    · refine Or.inl fun absent => cached ?_
      cases content : entry.content with
      | claim own value =>
        have different : key ≠ own := by
          rintro rfl
          exact about (Entry.claims_iff.mpr ⟨value, content⟩)
        simpa only [content, Content.apply, set_ne _ _ different] using absent
      | tombstone own =>
        by_cases same : key = own
        · simp only [Content.apply, same, set_self]
        · simpa only [content, Content.apply, set_ne _ _ same] using absent
      | other => simpa only [content, Content.apply] using absent
  · exact Or.inr (Or.inl ⟨place, next ▸ List.mem_cons_of_mem _ fetched, other, present, own⟩)
  · exact Or.inr (Or.inr landed)

theorem land (sane : Sane node σ l) (sent : σ.inflight = some (node, key, value))
    (data : List (Key × Nat)) :
    Supported { σ with inflight := none, log := record σ.log key value, data := data }
      { l with landed := true } := by
  intro other holds
  by_cases same : other = key
  · subst same
    exact retained_record _ _ _
  · apply retained_record_of_retained
    apply supported
    obtain cached | fetched | ⟨_, _, job⟩ := Local.holds_iff.mp holds
    · exact Local.holds_iff.mpr (Or.inl cached)
    · exact holds_record sane (Local.holds_iff.mpr (Or.inr (Or.inl fetched)))
    · exact absurd ((sane.inflight key value sent).2.2.2 _ _ job).1 same

theorem move [DecidableEq Node] (sane : Sane node σ l) (move : Move node σ l kind σ' l')
    (kept : ∀ key, l.holds σ.log key = true → retained σ.log key = true →
      retained σ'.log key = true) : Supported σ' l' := by
  have less {l' : Local Key Value} (cache : ∀ key, l'.cache key = none ∨ l'.cache key = l.cache key)
      (pending : ∀ index ∈ l'.pending, index ∈ l.pending)
      (landed : ∀ key value, l'.landed = true → l'.job = some ⟨key, .committing value⟩ →
        l.landed = true ∧ l.job = some ⟨key, .committing value⟩) : Supported σ l' := by
    intro key holds
    apply supported
    rw [Local.holds_iff] at holds ⊢
    refine holds.imp (fun cached => ?_) (Or.imp ?_ ?_)
    · obtain absent | same := cache key
      · exact absurd absent cached
      · exact same ▸ cached
    · rintro ⟨index, fetched, found⟩
      exact ⟨index, pending index fetched, found⟩
    · rintro ⟨arrived, value, own⟩
      exact ⟨(landed key value arrived own).1, value, (landed key value arrived own).2⟩
  cases move with
  | read found => exact supported.read found
  | process next found => exact supported.process next found
  | skip next left =>
    refine less (fun _ => Or.inr rfl) (fun index fetched => ?_)
      (fun _ _ landed own => ⟨landed, own⟩)
    rw [next]
    exact List.mem_cons_of_mem _ fetched
  | purge left =>
    exact less (fun _ => Or.inl rfl) (fun _ => id) (fun _ _ landed own => ⟨landed, own⟩)
  | enter | miss | begin | abandon | fail | drop =>
    exact less (fun _ => Or.inr rfl) (fun _ => id) (by rintro key value _ ⟨⟩)
  | send value job handle =>
    split <;> exact less (fun _ => Or.inr rfl) (fun _ => id) (by rintro key value ⟨⟩)
  | confirm job landed handle =>
    intro key holds
    apply supported
    rw [Local.holds_iff] at holds ⊢
    obtain cached | fetched | ⟨_, _, own⟩ := holds
    · rename_i own _ _
      by_cases same : key = own
      · exact Or.inr (Or.inr ⟨landed, _, same ▸ job⟩)
      · refine Or.inl fun absent => cached ?_
        simpa only [set_ne _ _ same] using absent
    · exact Or.inr (Or.inl fetched)
    · cases own
  | refuse job lost handle =>
    split <;> exact less (fun _ => Or.inr rfl) (fun _ => id) (by rintro key value _ ⟨⟩)
  | land sent => exact supported.land sane sent _
  | discard last => exact supported.of_held (fun key => holds_discard) kept
  | _ => exact supported

end Supported

theorem Step.supported [DecidableEq Node]
    {allowed : Kind → Shared Node Key Value → Local Key Value → Prop} {node : Node}
    {σ σ' : Shared Node Key Value} {l l' : Local Key Value} (step : Step allowed node σ l σ' l')
    (start : Sane node σ l) (supported : Supported σ l)
    (kept : ∀ key, l.holds σ.log key = true → retained σ.log key = true →
      retained σ'.log key = true) : Supported σ' l' := by
  cases step with
  | stay => exact supported
  | move made fair => exact supported.move start made kept

end Lib.FencedLog
