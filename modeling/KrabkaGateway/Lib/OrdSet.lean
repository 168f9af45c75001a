import Mathlib.Data.List.Perm.Subperm
import Mathlib.Order.Lattice
import Mathlib.Tactic.Common

/-!
# Ordered finite sets

A finite set kept as a strictly ascending list, with the operations a B-tree
set offers: insertion, removal, the first element and the rest. The ordering
is a field, so no operation can return a list that is out of order.
-/

namespace Lib

universe u

structure OrdSet (Elem : Type u) [LinearOrder Elem] where
  elems : List Elem
  sorted : elems.Pairwise (· < ·)
  deriving DecidableEq

namespace OrdSet

variable {Elem : Type u} [LinearOrder Elem]

instance : Membership Elem (OrdSet Elem) where
  mem set elem := elem ∈ set.elems

instance (elem : Elem) (set : OrdSet Elem) : Decidable (elem ∈ set) :=
  inferInstanceAs (Decidable (elem ∈ set.elems))

variable {elem : Elem} {set : OrdSet Elem}

theorem mem_def : elem ∈ set ↔ elem ∈ set.elems := Iff.rfl

/-- The set without elements. -/
def empty : OrdSet Elem := ⟨[], List.Pairwise.nil⟩

instance : EmptyCollection (OrdSet Elem) := ⟨empty⟩

@[simp]
theorem elems_empty : (∅ : OrdSet Elem).elems = [] := rfl

@[simp]
theorem not_mem_empty (elem : Elem) : elem ∉ (∅ : OrdSet Elem) := by
  simp [mem_def]

/-- Put an element at its place in an ascending list, once. -/
def insertList (elem : Elem) : List Elem → List Elem
  | [] => [elem]
  | head :: tail =>
    if elem < head then elem :: head :: tail
    else if elem = head then head :: tail
    else head :: insertList elem tail

variable {list : List Elem}

@[simp]
theorem mem_insertList {other : Elem} :
    other ∈ insertList elem list ↔ other = elem ∨ other ∈ list := by
  induction list with
  | nil => simp [insertList]
  | cons head tail ih =>
    unfold insertList
    split
    · simp
    · split
      next equality => simp [equality]
      next different =>
        simp only [List.mem_cons, ih]
        tauto

theorem sorted_insertList (sorted : list.Pairwise (· < ·)) :
    (insertList elem list).Pairwise (· < ·) := by
  induction list with
  | nil => simp [insertList]
  | cons head tail ih =>
    obtain ⟨below, tailSorted⟩ := List.pairwise_cons.mp sorted
    unfold insertList
    split
    next before =>
      refine List.pairwise_cons.mpr ⟨?_, sorted⟩
      intro other membership
      rcases List.mem_cons.mp membership with rfl | inTail
      · exact before
      · exact before.trans (below other inTail)
    next notBefore =>
      split
      · exact sorted
      next different =>
        refine List.pairwise_cons.mpr ⟨?_, ih tailSorted⟩
        intro other membership
        rcases mem_insertList.mp membership with rfl | inTail
        · exact lt_of_le_of_ne (not_lt.mp notBefore) (Ne.symm different)
        · exact below other inTail

/-- Add an element. -/
def insert (set : OrdSet Elem) (elem : Elem) : OrdSet Elem :=
  ⟨insertList elem set.elems, sorted_insertList set.sorted⟩

@[simp]
theorem mem_insert {other : Elem} : other ∈ set.insert elem ↔ other = elem ∨ other ∈ set :=
  mem_insertList

/-- Remove an element if it is there. -/
def erase (set : OrdSet Elem) (elem : Elem) : OrdSet Elem :=
  ⟨set.elems.filter (· ≠ elem), set.sorted.filter _⟩

@[simp]
theorem mem_erase {other : Elem} : other ∈ set.erase elem ↔ other ∈ set ∧ other ≠ elem := by
  simp [mem_def, erase]

/-- The least element. -/
def first (set : OrdSet Elem) : Option Elem := set.elems.head?

/-- The set without its least element. -/
def popFirst (set : OrdSet Elem) : OrdSet Elem :=
  ⟨set.elems.tail, set.sorted.tail⟩

/-- The number of elements. -/
def length (set : OrdSet Elem) : Nat := set.elems.length

variable {least : Elem}

theorem first_le (isFirst : set.first = some least) (membership : elem ∈ set) : least ≤ elem := by
  obtain ⟨elems, sorted⟩ := set
  cases elems with
  | nil => simp [first] at isFirst
  | cons head tail =>
    simp only [first, List.head?_cons, Option.some.injEq] at isFirst
    subst isFirst
    rcases List.mem_cons.mp membership with rfl | inTail
    · exact le_refl _
    · exact le_of_lt ((List.pairwise_cons.mp sorted).1 elem inTail)

theorem first_mem (isFirst : set.first = some least) : least ∈ set :=
  List.mem_of_mem_head? isFirst

theorem mem_popFirst (isFirst : set.first = some least) :
    elem ∈ set.popFirst ↔ elem ∈ set ∧ elem ≠ least := by
  obtain ⟨elems, sorted⟩ := set
  cases elems with
  | nil => simp [first] at isFirst
  | cons head tail =>
    simp only [first, List.head?_cons, Option.some.injEq] at isFirst
    subst isFirst
    simp only [mem_def, popFirst, List.tail_cons, List.mem_cons]
    constructor
    · intro inTail
      exact ⟨Or.inr inTail, ne_of_gt ((List.pairwise_cons.mp sorted).1 elem inTail)⟩
    · rintro ⟨rfl | inTail, different⟩
      · exact absurd rfl different
      · exact inTail

theorem length_le_of_subset {first second : OrdSet Elem}
    (kept : ∀ elem ∈ first, elem ∈ second) : first.length ≤ second.length :=
  (List.subperm_of_subset (first.sorted.imp ne_of_lt) kept).length_le

theorem length_insert_le (set : OrdSet Elem) (elem : Elem) :
    (set.insert elem).length ≤ set.length + 1 := by
  have covered : (set.insert elem).elems ⊆ elem :: set.elems := by
    intro other membership
    exact List.mem_cons.mpr (mem_insert.mp membership)
  exact (List.subperm_of_subset ((set.insert elem).sorted.imp ne_of_lt) covered).length_le

theorem length_insert_of_mem (known : elem ∈ set) : (set.insert elem).length ≤ set.length := by
  apply length_le_of_subset
  intro other membership
  rcases mem_insert.mp membership with rfl | old
  · exact known
  · exact old

end OrdSet

end Lib
