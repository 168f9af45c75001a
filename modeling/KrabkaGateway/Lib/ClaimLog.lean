import Mathlib.Data.List.Basic
import Mathlib.Data.List.Induction
import Mathlib.Tactic.Common
import KrabkaGateway.Lib.Update

/-!
# Logs of claims

A log whose records claim keys with values, withdraw claims or say nothing.
Retention and compaction discard records without moving the others. The live
claim of a key is its last record, if that is a claim and still there.
-/

namespace Lib.ClaimLog

variable {Key Value : Type}

/-- What a record says. -/
inductive Content (Key Value : Type) where
  | claim (key : Key) (value : Value)
  | tombstone (key : Key)
  | other
  deriving DecidableEq, Repr

namespace Content

def key? : Content Key Value → Option Key
  | claim key _ => some key
  | tombstone key => some key
  | other => none

/-- What a reader makes of a record. -/
def apply [DecidableEq Key] (content : Content Key Value) (cache : Key → Option Value) :
    Key → Option Value :=
  match content with
  | claim key value => set cache key (some value)
  | tombstone key => set cache key none
  | other => cache

@[simp] theorem key?_claim (key : Key) (value : Value) : (claim key value).key? = some key := rfl

variable {content : Content Key Value} {key : Key}

theorem apply_of_key?_ne [DecidableEq Key] (different : content.key? ≠ some key)
    (cache : Key → Option Value) : content.apply cache key = cache key := by
  cases content with
  | claim | tombstone =>
    rw [apply, set_ne]
    exact fun same => different (congrArg some same.symm)
  | other => rfl

theorem apply_of_key?_eq [DecidableEq Key] (about : content.key? = some key)
    (cache other : Key → Option Value) : content.apply cache key = content.apply other key := by
  cases content with
  | claim own | tombstone own =>
    obtain rfl : own = key := Option.some.inj about
    rw [apply, apply, set_self, set_self]
  | other => cases about

end Content

structure Entry (Key Value : Type) where
  content : Content Key Value
  gone : Bool
  deriving DecidableEq, Repr

/-- The record at `index` is the live claim of `key`. -/
def Live (log : List (Entry Key Value)) (key : Key) (index : Nat) (value : Value) : Prop :=
  log[index]? = some ⟨.claim key value, false⟩ ∧
    ∀ later entry, index < later → log[later]? = some entry → entry.content.key? ≠ some key

variable {log : List (Entry Key Value)} {key : Key} {index : Nat} {value : Value}

theorem Live.index_lt (live : Live log key index value) : index < log.length :=
  (List.getElem?_eq_some_iff.mp live.1).1

variable {other : Nat} {entry : Entry Key Value}

theorem Live.le (live : Live log key index value) (found : log[other]? = some entry)
    (same : entry.content.key? = some key) : other ≤ index := by
  by_contra later
  exact live.2 other entry (Nat.lt_of_not_le later) found same

/-! ## New claims -/

def record (log : List (Entry Key Value)) (key : Key) (value : Value) : List (Entry Key Value) :=
  log ++ [⟨.claim key value, false⟩]

@[simp] theorem length_record (log : List (Entry Key Value)) (key : Key) (value : Value) :
    (record log key value).length = log.length + 1 := by
  simp [record]

theorem getElem?_record (log : List (Entry Key Value)) (key : Key) (value : Value) (index : Nat) :
    (record log key value)[index]? =
      if index = log.length then some ⟨.claim key value, false⟩ else log[index]? := by
  by_cases last : index = log.length
  · subst last
    simp [record]
  · rw [if_neg last, record]
    by_cases inside : index < log.length
    · exact List.getElem?_append_left inside
    · rw [List.getElem?_eq_none (by simp; omega), List.getElem?_eq_none (by omega)]

theorem getElem?_record_of_some (found : log[index]? = some entry) (key : Key) (value : Value) :
    (record log key value)[index]? = some entry := by
  have inside := (List.getElem?_eq_some_iff.mp found).1
  rw [getElem?_record, if_neg (by omega), found]

theorem live_record (log : List (Entry Key Value)) (key : Key) (value : Value) :
    Live (record log key value) key log.length value := by
  refine ⟨by rw [getElem?_record, if_pos rfl], ?_⟩
  intro later entry after found
  rw [List.getElem?_eq_none (by simp; omega)] at found
  contradiction

theorem Live.of_record {other : Key} {found : Value}
    (live : Live (record log key value) other index found) :
    (other = key ∧ found = value) ∨ (other ≠ key ∧ Live log other index found) := by
  by_cases same : other = key
  · subst same
    have last : index = log.length := by
      have bound := live.index_lt
      rw [length_record] at bound
      have latest := live.le (live_record log other value).1 rfl
      omega
    have claim := live.1
    rw [getElem?_record, if_pos last] at claim
    simp only [Option.some.injEq, Entry.mk.injEq, Content.claim.injEq, and_true, true_and] at claim
    exact Or.inl ⟨rfl, claim.symm⟩
  · refine Or.inr ⟨same, ?_, ?_⟩
    · have claim := live.1
      rw [getElem?_record] at claim
      split at claim
      · simp only [Option.some.injEq, Entry.mk.injEq, Content.claim.injEq] at claim
        exact absurd claim.1.1.symm same
      · exact claim
    · intro later entry after present
      exact live.2 later entry after (getElem?_record_of_some present key value)

/-! ## Discarded records -/

/-- The log without the record at `index`, whose place stays empty. -/
def discard (log : List (Entry Key Value)) (index : Nat) : List (Entry Key Value) :=
  log.modify index (fun entry => { entry with gone := true })

/-- Records of a key are discarded in their order. -/
def Discardable (log : List (Entry Key Value)) (index : Nat) : Prop :=
  ∀ earlier before entry key, earlier < index → log[earlier]? = some before →
    log[index]? = some entry → before.content.key? = some key →
    entry.content.key? = some key → before.gone = true

/-- Whether the record may be discarded now. -/
def canDiscard [DecidableEq Key] (log : List (Entry Key Value)) (index : Nat) : Bool :=
  match log[index]? with
  | none => true
  | some entry =>
    (log.take index).all fun before =>
      before.gone || decide (before.content.key? = none) ||
        decide (before.content.key? ≠ entry.content.key?)

theorem discardable_of_canDiscard [DecidableEq Key] (can : canDiscard log index = true) :
    Discardable log index := by
  intro earlier before entry key lower found here claimed same
  simp only [canDiscard, here, List.all_eq_true] at can
  have taken : before ∈ log.take index := by
    apply List.mem_of_getElem? (i := earlier)
    rw [List.getElem?_take_of_lt lower, found]
  simpa [claimed, same] using can before taken

@[simp] theorem length_discard (log : List (Entry Key Value)) (index : Nat) :
    (discard log index).length = log.length := by
  simp [discard]

theorem getElem?_discard (log : List (Entry Key Value)) (index other : Nat) :
    (discard log index)[other]? =
      if index = other then log[other]?.map (fun entry => { entry with gone := true })
      else log[other]? := by
  rw [discard, List.getElem?_modify]
  split <;> simp

theorem getElem?_of_discard (found : (discard log index)[other]? = some entry) :
    ∃ before, log[other]? = some before ∧ before.content = entry.content ∧
      (entry.gone = false → before.gone = false) := by
  rw [getElem?_discard] at found
  split at found
  · obtain ⟨before, present, rfl⟩ := Option.map_eq_some_iff.mp found
    exact ⟨before, present, rfl, fun impossible => by contradiction⟩
  · exact ⟨entry, found, rfl, id⟩

theorem getElem?_discard_of_some (found : log[other]? = some entry) (index : Nat) :
    ∃ after, (discard log index)[other]? = some after ∧ after.content = entry.content ∧
      (entry.gone = true → after.gone = true) ∧ (other = index → after.gone = true) ∧
      (other ≠ index → after = entry) := by
  rw [getElem?_discard]
  split
  · rename_i same
    subst same
    exact ⟨{ entry with gone := true }, by rw [found]; rfl, rfl, fun _ => rfl, fun _ => rfl,
      fun different => absurd rfl different⟩
  · rename_i different
    exact ⟨entry, found, rfl, id, fun same => absurd same.symm different, fun _ => rfl⟩

theorem Live.of_discard (live : Live (discard log index) key other value) :
    Live log key other value := by
  constructor
  · obtain ⟨before, present, content, gone⟩ := getElem?_of_discard live.1
    rw [present]
    cases before
    simp_all
  · intro later entry after present
    obtain ⟨now, found, content, _⟩ := getElem?_discard_of_some present index
    rw [← content]
    exact live.2 later now after found

/-! ## The live claim, computed -/

def Entry.value? (entry : Entry Key Value) : Option Value :=
  match entry.content with
  | .claim _ value => if entry.gone then none else some value
  | _ => none

/-- The live claim of a key. -/
def latest [DecidableEq Key] (log : List (Entry Key Value)) (key : Key) : Option Value :=
  log.foldl (fun found entry => if entry.content.key? = some key then entry.value? else found) none

theorem latest_record [DecidableEq Key] (log : List (Entry Key Value)) (key : Key) (value : Value) :
    latest (record log key value) key = some value := by
  simp [latest, record, Entry.value?]

theorem exists_live_of_latest [DecidableEq Key] (found : latest log key = some value) :
    ∃ index, Live log key index value := by
  induction log using List.reverseRecOn with
  | nil => simp [latest] at found
  | append_singleton log entry ih =>
    rw [latest, List.foldl_append] at found
    simp only [List.foldl_cons, List.foldl_nil] at found
    have nothingAfter : ∀ {later : Nat} {other : Entry Key Value}, log.length < later →
        (log ++ [entry])[later]? = some other → False := by
      intro later other after present
      rw [List.getElem?_eq_none (by simp; omega)] at present
      contradiction
    split at found
    · rename_i same
      obtain ⟨content, gone⟩ := entry
      cases content with
      | claim other claimed =>
        simp only [Content.key?, Option.some.injEq] at same
        simp only [Entry.value?, Option.ite_none_left_eq_some, Option.some.injEq,
          Bool.not_eq_true] at found
        obtain ⟨rfl, rfl⟩ := found
        subst same
        exact ⟨log.length, by simp, fun later other after present =>
          absurd (nothingAfter after present) not_false⟩
      | tombstone other => simp [Entry.value?] at found
      | other => simp [Content.key?] at same
    · rename_i different
      obtain ⟨index, live⟩ := ih found
      refine ⟨index, ?_, ?_⟩
      · rw [List.getElem?_append_left live.index_lt]
        exact live.1
      · intro later other after present
        by_cases inside : later < log.length
        · rw [List.getElem?_append_left inside] at present
          exact live.2 later other after present
        · by_cases last : later = log.length
          · subst last
            simp only [List.getElem?_concat_length, Option.some.injEq] at present
            exact present ▸ different
          · exact (nothingAfter (by omega) present).elim

end Lib.ClaimLog
