import Mathlib.Data.List.Nodup
import Mathlib.Tactic.Common

/-!
# Records under keys

A list of records that are searched by a key each of them has. A record is added at
the end when its key is missing, and changed where it stands. While no two records
have one key the list is a table, and `find` says what each of the operations does
to it.
-/

namespace Lib.Keyed

variable {Record Key : Type} [DecidableEq Key] (keyOf : Record → Key)

def Unique (records : List Record) : Prop :=
  (records.map keyOf).Nodup

def find (records : List Record) (key : Key) : Option Record :=
  records.find? fun record => keyOf record = key

def ensure (records : List Record) (fresh : Record) : List Record :=
  if (find keyOf records (keyOf fresh)).isSome then records else records ++ [fresh]

def modify (key : Key) (holds : Record → Bool) (change : Record → Record) :
    List Record → List Record
  | [] => []
  | record :: records =>
    if keyOf record = key ∧ holds record then change record :: records
    else record :: modify key holds change records

variable {keyOf}

@[simp]
theorem find_nil (key : Key) : find keyOf [] key = none := rfl

theorem find_cons (record : Record) (records : List Record) (key : Key) :
    find keyOf (record :: records) key =
      if keyOf record = key then some record else find keyOf records key := by
  rw [find, List.find?_cons]
  by_cases own : keyOf record = key
  · simp [own]
  · simp [own, find]

variable {records : List Record} {key : Key}

theorem find_eq_none : find keyOf records key = none ↔ key ∉ records.map keyOf := by
  simp [find]

variable {record : Record}

theorem find_some (found : find keyOf records key = some record) :
    record ∈ records ∧ keyOf record = key := by
  refine ⟨List.mem_of_find?_eq_some found, ?_⟩
  simpa using List.find?_some found

theorem Unique.find_of_mem (unique : Unique keyOf records) (member : record ∈ records) :
    find keyOf records (keyOf record) = some record := by
  induction records with
  | nil => cases member
  | cons first records ih =>
    obtain ⟨fresh, rest⟩ := List.nodup_cons.mp unique
    rw [find_cons]
    rcases List.mem_cons.mp member with rfl | later
    · exact if_pos rfl
    · have other : keyOf first ≠ keyOf record :=
        fun same => fresh (same ▸ List.mem_map_of_mem later)
      rw [if_neg other, ih rest later]

theorem Unique.filter_of_mem (unique : Unique keyOf records) (member : record ∈ records) :
    records.filter (fun other => keyOf other = keyOf record) = [record] := by
  induction records with
  | nil => cases member
  | cons first records ih =>
    obtain ⟨fresh, rest⟩ := List.nodup_cons.mp unique
    rcases List.mem_cons.mp member with rfl | later
    · rw [List.filter_cons_of_pos (by simp), List.filter_eq_nil_iff.mpr]
      intro other present same
      exact fresh (of_decide_eq_true same ▸ List.mem_map_of_mem present)
    · have other : keyOf first ≠ keyOf record :=
        fun same => fresh (same ▸ List.mem_map_of_mem later)
      rw [List.filter_cons_of_neg (by simpa using other), ih rest later]

/-! ## Adding -/

theorem find_ensure (records : List Record) (fresh : Record) (key : Key) :
    find keyOf (ensure keyOf records fresh) key =
      if key = keyOf fresh then some ((find keyOf records key).getD fresh)
      else find keyOf records key := by
  unfold ensure
  by_cases own : key = keyOf fresh
  · subst own
    rw [if_pos rfl]
    cases found : find keyOf records (keyOf fresh) with
    | some record => simp [found]
    | none =>
      have missing := found
      simp only [find] at missing
      simp [find, missing]
  · rw [if_neg own]
    split
    · rfl
    · simp [find, Ne.symm own]

theorem Unique.ensure (unique : Unique keyOf records) (fresh : Record) :
    Unique keyOf (ensure keyOf records fresh) := by
  unfold Keyed.ensure
  split
  · exact unique
  · rename_i missing
    rw [Option.not_isSome_iff_eq_none, find_eq_none] at missing
    rw [Unique, List.map_append, List.map_singleton]
    exact List.nodup_append.mpr ⟨unique, List.nodup_singleton _, by
      intro key member other single same
      rw [List.mem_singleton] at single
      exact missing (single ▸ same ▸ member)⟩

theorem filter_ensure {kind : Record → Bool} {fresh : Record} (other : kind fresh = false)
    (records : List Record) : (ensure keyOf records fresh).filter kind = records.filter kind := by
  unfold ensure
  split
  · rfl
  · rw [List.filter_append, List.filter_singleton, other, cond_false, List.append_nil]

/-! ## Changing -/

section

variable {key : Key} {holds : Record → Bool} {change : Record → Record}

theorem map_modify (keeps : ∀ record, keyOf (change record) = keyOf record)
    (records : List Record) :
    (modify keyOf key holds change records).map keyOf = records.map keyOf := by
  induction records with
  | nil => rfl
  | cons record records ih =>
    rw [modify]
    split
    · rw [List.map_cons, List.map_cons, keeps]
    · rw [List.map_cons, List.map_cons, ih]

variable {records : List Record}

theorem Unique.modify (unique : Unique keyOf records)
    (keeps : ∀ record, keyOf (change record) = keyOf record) :
    Unique keyOf (modify keyOf key holds change records) := by
  rw [Unique, map_modify keeps]
  exact unique

theorem modify_of_not_mem (missing : key ∉ records.map keyOf) :
    modify keyOf key holds change records = records := by
  induction records with
  | nil => rfl
  | cons record records ih =>
    rw [List.map_cons, List.mem_cons, not_or] at missing
    rw [modify, if_neg fun found => missing.1 found.1.symm, ih missing.2]

theorem find_modify (unique : Unique keyOf records)
    (keeps : ∀ record, keyOf (change record) = keyOf record) (other : Key) :
    find keyOf (modify keyOf key holds change records) other =
      if other = key then
        (find keyOf records key).map fun record => if holds record then change record else record
      else find keyOf records other := by
  induction records with
  | nil => simp [modify]
  | cons record records ih =>
    obtain ⟨fresh, rest⟩ := List.nodup_cons.mp unique
    rw [modify]
    by_cases own : keyOf record = key
    · subst own
      -- The rest has no record of this key, so only the head can be changed.
      rw [modify_of_not_mem fresh]
      split
      · rename_i changed
        simp only [find_cons, keeps, changed.2, if_true, Option.map_some]
        by_cases here : other = keyOf record
        · simp [here]
        · simp [here, Ne.symm here]
      · rename_i kept
        have fails : holds record = false := by simpa using kept
        simp only [find_cons, if_true, Option.map_some, fails, if_neg Bool.false_ne_true]
        by_cases here : other = keyOf record
        · simp [here]
        · simp [here, Ne.symm here]
    · rw [if_neg fun found => own found.1, find_cons, find_cons, find_cons, if_neg own,
        ih rest]
      by_cases here : keyOf record = other
      · rw [if_pos here, if_pos here, if_neg (here ▸ own)]
      · rw [if_neg here, if_neg here]

theorem filter_modify {kind : Record → Bool}
    (before : ∀ record, keyOf record = key → kind record = false)
    (after : ∀ record, keyOf record = key → kind (change record) = false)
    (records : List Record) :
    (modify keyOf key holds change records).filter kind = records.filter kind := by
  induction records with
  | nil => rfl
  | cons record records ih =>
    rw [modify]
    split
    · rename_i changed
      rw [List.filter_cons_of_neg (by simp [after record changed.1]),
        List.filter_cons_of_neg (by simp [before record changed.1])]
    · rw [List.filter_cons, List.filter_cons, ih]

end

end Lib.Keyed
