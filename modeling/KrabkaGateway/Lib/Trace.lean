import Mathlib.Tactic.Common

/-!
# Traces

What holds whenever something happens, of all that happened before.
-/

namespace Lib

variable {Event : Type}

def Whenever (condition : Event → List Event → Prop) (trace : List Event) : Prop :=
  ∀ before event after, trace = before ++ event :: after → condition event before

variable {event : Event}

theorem append_cons_cases {first second before after : List Event}
    (same : first ++ second = before ++ event :: after) :
    (∃ more, first = before ++ event :: more) ∨
      ∃ more, before = first ++ more ∧ second = more ++ event :: after := by
  rcases List.append_eq_append_iff.mp same with ⟨more, whole, rest⟩ | ⟨more, whole, rest⟩
  · exact Or.inr ⟨more, whole, rest⟩
  · cases more with
    | nil => exact Or.inr ⟨[], by simpa using whole.symm, by simpa using rest.symm⟩
    | cons head more =>
      cases rest
      exact Or.inl ⟨more, whole⟩

variable {condition : Event → List Event → Prop} {trace : List Event}

theorem whenever_nil : Whenever condition [] :=
  fun _ _ _ empty => absurd empty.symm (by simp)

theorem Whenever.append (old : Whenever condition trace) {more : List Event}
    (new : ∀ before event after, more = before ++ event :: after →
      condition event (trace ++ before)) : Whenever condition (trace ++ more) := by
  intro before event after split
  rcases append_cons_cases split with ⟨rest, whole⟩ | ⟨between, rfl, rest⟩
  · exact old before event rest whole
  · exact new between event after rest

theorem Whenever.concat (old : Whenever condition trace) (new : condition event trace) :
    Whenever condition (trace ++ [event]) := by
  refine old.append fun before other after split => ?_
  obtain ⟨rfl, rfl, rfl⟩ : before = [] ∧ other = event ∧ after = [] := by
    cases before with
    | nil => simpa [eq_comm] using split
    | cons head before => simp at split
  rwa [List.append_nil]

end Lib
