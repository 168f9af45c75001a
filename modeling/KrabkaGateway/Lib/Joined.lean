import Mathlib.Data.List.TakeWhile
import Mathlib.Tactic.Common

/-!
# Texts joined by a separator

A part that does not hold the separator is found again before it.
-/

namespace Lib

variable {Item : Type}

/-- A text that is empty or goes on with the separator. -/
def Ends (separator : Item) (tail : List Item) : Prop :=
  ∀ item ∈ tail.head?, item = separator

theorem ends_nil (separator : Item) : Ends separator [] := by
  rintro item ⟨⟩

theorem ends_cons (separator : Item) (tail : List Item) : Ends separator (separator :: tail) := by
  rintro item ⟨⟩
  rfl

variable {separator : Item}

theorem takeWhile_front [DecidableEq Item] {front tail : List Item} (absent : separator ∉ front)
    (ends : Ends separator tail) : (front ++ tail).takeWhile (· ≠ separator) = front := by
  have inside : ∀ item ∈ front, decide (item ≠ separator) = true := by
    intro item member
    exact decide_eq_true (ne_of_mem_of_not_mem member absent)
  rw [List.takeWhile_append_of_pos inside]
  cases tail with
  | nil => exact List.append_nil front
  | cons item tail =>
    rw [ends item rfl, List.takeWhile_cons_of_neg (by simp), List.append_nil]

theorem front_unique [DecidableEq Item] {front other tail rest : List Item}
    (absent : separator ∉ front) (otherAbsent : separator ∉ other) (ends : Ends separator tail)
    (otherEnds : Ends separator rest) (same : front ++ tail = other ++ rest) :
    front = other ∧ tail = rest := by
  have fronts : front = other := by
    rw [← takeWhile_front absent ends, same, takeWhile_front otherAbsent otherEnds]
  subst fronts
  exact ⟨rfl, List.append_cancel_left same⟩

variable {parts : List (List Item)}

theorem mem_intercalate {item : Item} (member : item ∈ [separator].intercalate parts) :
    item = separator ∨ ∃ part ∈ parts, item ∈ part := by
  induction parts with
  | nil => cases member
  | cons part parts ih =>
    cases parts with
    | nil => exact Or.inr ⟨part, List.mem_cons_self, by simpa using member⟩
    | cons next parts =>
      rw [List.intercalate_cons_cons, List.mem_append, List.mem_append] at member
      rcases member with (own | between) | later
      · exact Or.inr ⟨part, List.mem_cons_self, own⟩
      · exact Or.inl (List.mem_singleton.mp between)
      · exact (ih later).imp_right fun ⟨found, listed, inside⟩ =>
          ⟨found, List.mem_cons_of_mem _ listed, inside⟩

/-- Parts that are not empty and do not hold the separator are found again in what they are
joined to. -/
theorem intercalate_unique [DecidableEq Item] {others : List (List Item)}
    (absent : ∀ part ∈ parts, part ≠ [] ∧ separator ∉ part)
    (otherAbsent : ∀ part ∈ others, part ≠ [] ∧ separator ∉ part)
    (same : [separator].intercalate parts = [separator].intercalate others) : parts = others := by
  have filled : ∀ {part : List Item} {rest : List (List Item)}, part ≠ [] →
      [separator].intercalate (part :: rest) ≠ [] := by
    intro part rest nonempty
    cases rest with
    | nil => rwa [List.intercalate_singleton]
    | cons next rest => simp [List.intercalate_cons_cons]
  cases parts with
  | nil =>
    cases others with
    | nil => rfl
    | cons other others =>
      exact absurd same.symm (filled (otherAbsent other List.mem_cons_self).1)
  | cons part parts =>
    cases others with
    | nil => exact absurd same (filled (absent part List.mem_cons_self).1)
    | cons other others =>
      have split := congrArg (List.splitOn separator) same
      rwa [List.splitOn_intercalate separator (fun part member => (absent part member).2)
          (List.cons_ne_nil _ _),
        List.splitOn_intercalate separator (fun part member => (otherAbsent part member).2)
          (List.cons_ne_nil _ _)] at split

end Lib
