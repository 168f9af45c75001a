import Mathlib.Data.List.Perm.Basic
import Mathlib.Data.List.Nodup
import Mathlib.Tactic.Common

/-!
# Named members

An object as the list of its members, with names that are distinct. Setting a
member replaces the one of that name or puts it at the end, so of several values
set under one name the last one stays.
-/

namespace Lib

variable {Key Value Other : Type}

def Distinct (members : List (Key × Value)) : Prop :=
  (members.map Prod.fst).Nodup

theorem distinct_nil : Distinct ([] : List (Key × Value)) :=
  List.nodup_nil

variable {members : List (Key × Value)}

theorem Distinct.perm {others : List (Key × Value)} (distinct : Distinct members)
    (same : others.Perm members) : Distinct others :=
  ((same.map Prod.fst).nodup_iff).mpr distinct

theorem Distinct.map (distinct : Distinct members) (change : Value → Other) :
    Distinct (members.map (Prod.map id change)) := by
  unfold Distinct at *
  rwa [List.map_map, show Prod.fst ∘ Prod.map id change = (Prod.fst : Key × Value → Key) from rfl]

variable [DecidableEq Key]

theorem lookup_member (member : Key × Value) (members : List (Key × Value)) (name : Key) :
    (member :: members).lookup name =
      if name = member.1 then some member.2 else members.lookup name := by
  rw [List.lookup_cons]
  by_cases own : name = member.1
  · simp [own]
  · rw [beq_false_of_ne own, if_neg own]

theorem mem_of_lookup {name : Key} {value : Value} (found : members.lookup name = some value) :
    (name, value) ∈ members := by
  obtain ⟨_, _, rfl, _⟩ := List.lookup_eq_some_iff.mp found
  exact List.mem_append_right _ List.mem_cons_self

def insertMember (key : Key) (value : Value) : List (Key × Value) → List (Key × Value)
  | [] => [(key, value)]
  | member :: members =>
    if member.1 = key then (key, value) :: members
    else member :: insertMember key value members

/-- The members set one after another. -/
def insertMembers (members entries : List (Key × Value)) : List (Key × Value) :=
  entries.foldl (fun members entry => insertMember entry.1 entry.2 members) members

theorem lookup_insertMember (key : Key) (value : Value) (members : List (Key × Value))
    (name : Key) :
    (insertMember key value members).lookup name =
      if name = key then some value else members.lookup name := by
  induction members with
  | nil => exact lookup_member (key, value) [] name
  | cons member members ih =>
    rw [insertMember]
    split
    · rename_i replaced
      rw [lookup_member, lookup_member, replaced]
      split <;> rfl
    · rename_i kept
      rw [lookup_member, lookup_member, ih]
      by_cases here : name = member.1
      · rw [if_pos here, if_pos here, if_neg (here ▸ kept)]
      · rw [if_neg here, if_neg here]

variable {key : Key} {value : Value} {entry : Key × Value}

theorem mem_insertMember (member : entry ∈ insertMember key value members) :
    entry = (key, value) ∨ entry ∈ members := by
  induction members with
  | nil => exact Or.inl (List.mem_singleton.mp member)
  | cons first members ih =>
    rw [insertMember] at member
    split at member
    · rcases List.mem_cons.mp member with own | rest
      · exact Or.inl own
      · exact Or.inr (List.mem_cons_of_mem _ rest)
    · rcases List.mem_cons.mp member with rfl | rest
      · exact Or.inr List.mem_cons_self
      · exact (ih rest).imp_right (List.mem_cons_of_mem _)

def removeMember (key : Key) (members : List (Key × Value)) : List (Key × Value) :=
  members.filter fun member => member.1 ≠ key

theorem lookup_removeMember (key : Key) (members : List (Key × Value)) (name : Key) :
    (removeMember key members).lookup name = if name = key then none else members.lookup name := by
  unfold removeMember
  induction members with
  | nil => exact (ite_self _).symm
  | cons member members ih =>
    rw [List.filter_cons, lookup_member]
    by_cases removed : member.1 = key
    · rw [if_neg (by simpa using removed), ih]
      by_cases own : name = key
      · rw [if_pos own, if_pos own]
      · rw [if_neg own, if_neg own, if_neg (removed ▸ own)]
    · rw [if_pos (by simpa using removed), lookup_member, ih]
      by_cases here : name = member.1
      · rw [if_pos here, if_pos here, if_neg (here ▸ removed)]
      · rw [if_neg here, if_neg here]

theorem insertMember_of_fresh (fresh : key ∉ members.map Prod.fst) (value : Value) :
    insertMember key value members = members ++ [(key, value)] := by
  induction members with
  | nil => rfl
  | cons member members ih =>
    rw [List.map_cons, List.mem_cons, not_or] at fresh
    rw [insertMember, if_neg (Ne.symm fresh.1), ih fresh.2, List.cons_append]

theorem Distinct.insertMember (distinct : Distinct members) (key : Key) (value : Value) :
    Distinct (insertMember key value members) := by
  induction members with
  | nil => exact List.nodup_singleton _
  | cons member members ih =>
    obtain ⟨fresh, rest⟩ := List.nodup_cons.mp distinct
    rw [Lib.insertMember]
    split
    · rename_i same
      rw [Distinct, List.map_cons, List.nodup_cons]
      rw [same] at fresh
      exact ⟨fresh, rest⟩
    · rename_i other
      refine List.nodup_cons.mpr ⟨fun again => ?_, ih rest⟩
      obtain ⟨entry, member', named⟩ := List.mem_map.mp again
      rcases mem_insertMember member' with rfl | old
      · exact other named.symm
      · exact fresh (List.mem_map.mpr ⟨entry, old, named⟩)

theorem Distinct.insertMembers (distinct : Distinct members) (entries : List (Key × Value)) :
    Distinct (insertMembers members entries) := by
  induction entries generalizing members with
  | nil => exact distinct
  | cons entry entries ih =>
    exact ih (distinct.insertMember entry.1 entry.2)

theorem lookup_insertMembers (members entries : List (Key × Value)) (name : Key) :
    (insertMembers members entries).lookup name =
      (entries.reverse.lookup name).or (members.lookup name) := by
  induction entries generalizing members with
  | nil => rfl
  | cons entry entries ih =>
    have step : insertMembers members (entry :: entries) =
        insertMembers (insertMember entry.1 entry.2 members) entries := rfl
    rw [step, ih, lookup_insertMember, List.reverse_cons, List.lookup_append,
      Option.or_assoc]
    congr 1
    rw [lookup_member]
    split <;> rfl

theorem mem_insertMembers {entries : List (Key × Value)}
    (member : entry ∈ insertMembers members entries) : entry ∈ entries ∨ entry ∈ members := by
  induction entries generalizing members with
  | nil => exact Or.inr member
  | cons first entries ih =>
    rcases ih member with later | now
    · exact Or.inl (List.mem_cons_of_mem _ later)
    · refine (mem_insertMember now).imp_left fun own => ?_
      rw [own]
      exact List.mem_cons_self

theorem insertMembers_of_distinct {entries : List (Key × Value)}
    (distinct : Distinct (members ++ entries)) :
    insertMembers members entries = members ++ entries := by
  induction entries generalizing members with
  | nil => exact (List.append_nil members).symm
  | cons entry entries ih =>
    have fresh : entry.1 ∉ members.map Prod.fst := by
      rw [Distinct, List.map_append, List.map_cons] at distinct
      exact fun again => (List.nodup_append.mp distinct).2.2 _ again _ List.mem_cons_self rfl
    have step : insertMembers members (entry :: entries) =
        insertMembers (insertMember entry.1 entry.2 members) entries := rfl
    rw [List.append_cons] at distinct
    rw [step, insertMember_of_fresh fresh, ih distinct, ← List.append_cons]

theorem Distinct.lookup_eq_some (distinct : Distinct members) {name : Key} :
    members.lookup name = some value ↔ (name, value) ∈ members := by
  induction members with
  | nil => simp
  | cons member members ih =>
    obtain ⟨first, found⟩ := member
    obtain ⟨fresh, rest⟩ := List.nodup_cons.mp distinct
    rw [lookup_member, List.mem_cons, Prod.mk.injEq]
    split
    · rename_i own
      have absent : (name, value) ∉ members :=
        fun again => fresh (List.mem_map.mpr ⟨_, again, own⟩)
      simp [own ▸ absent, own, eq_comm]
    · rename_i other
      rw [ih rest]
      simp [other]

theorem Distinct.lookup_perm {others : List (Key × Value)} (distinct : Distinct members)
    (same : others.Perm members) (name : Key) : others.lookup name = members.lookup name := by
  apply Option.ext
  intro value
  rw [(distinct.perm same).lookup_eq_some, distinct.lookup_eq_some, same.mem_iff]

theorem Distinct.perm_of_lookup {others : List (Key × Value)} (distinct : Distinct members)
    (distinctOthers : Distinct others) (same : ∀ name, members.lookup name = others.lookup name) :
    members.Perm others := by
  refine (List.perm_ext_iff_of_nodup (.of_map _ distinct) (.of_map _ distinctOthers)).mpr ?_
  rintro ⟨name, value⟩
  rw [← distinct.lookup_eq_some, ← distinctOthers.lookup_eq_some, same]

theorem lookup_map (change : Value → Other) (members : List (Key × Value)) (name : Key) :
    (members.map (Prod.map id change)).lookup name = (members.lookup name).map change := by
  induction members with
  | nil => rfl
  | cons member members ih =>
    rw [List.map_cons, lookup_member, lookup_member, ih]
    rw [Prod.map_fst, id_eq]
    split <;> rfl

end Lib
