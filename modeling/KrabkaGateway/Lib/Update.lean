import Mathlib.Logic.Basic

/-!
# Point updates of functions

Tables indexed by a key are functions here. `set` changes one entry and leaves
the others as they are.
-/

namespace Lib

universe u v

variable {Key : Type u} {Value : Type v} [DecidableEq Key]

/-- The table `table` with the entry of `key` replaced. -/
def set (table : Key → Value) (key : Key) (value : Value) : Key → Value :=
  fun other => if other = key then value else table other

@[simp]
theorem set_self (table : Key → Value) (key : Key) (value : Value) :
    set table key value key = value := by
  simp [set]

@[simp]
theorem set_ne (table : Key → Value) {key other : Key} (value : Value)
    (different : other ≠ key) : set table key value other = table other := by
  simp [set, different]

@[simp]
theorem set_set (table : Key → Value) (key : Key) (value later : Value) :
    set (set table key value) key later = set table key later := by
  funext other
  by_cases own : other = key
  · simp [own]
  · simp [own]

theorem set_cases {table : Key → Value} {key other : Key} {value entry : Value}
    (found : set table key value other = entry) :
    other = key ∧ value = entry ∨ other ≠ key ∧ table other = entry := by
  by_cases own : other = key
  · subst own
    exact Or.inl ⟨rfl, (set_self table other value).symm.trans found⟩
  · exact Or.inr ⟨own, (set_ne table value own).symm.trans found⟩

end Lib
