import Mathlib.Logic.Basic

/-!
# Runs of a machine

A machine is a partial step function: `step state action` is the state after
the action, or `none` while the action is not enabled. `exec` runs a list of
actions, and `Along` says that every step taken by a run meets a condition on
the action and the state before it. `cost` sums a price over the steps of a run.
The rules below turn facts about one step into facts about every run.
-/

namespace Lib.Run

universe u v

variable {State : Type u} {Action : Type v}

/-- Run a list of actions, stopping at the first one that is not enabled. -/
def exec (step : State → Action → Option State) : State → List Action → Option State
  | state, [] => some state
  | state, action :: rest => (step state action).bind fun next => exec step next rest

/-- Every step that the run takes meets `allowed`. -/
def Along (step : State → Action → Option State) (allowed : State → Action → Prop) :
    State → List Action → Prop
  | _, [] => True
  | state, action :: rest =>
    allowed state action ∧
      ∀ next, step state action = some next → Along step allowed next rest

def cost (step : State → Action → Option State) (price : State → Action → Nat) :
    State → List Action → Nat
  | _, [] => 0
  | state, action :: rest =>
    price state action +
      match step state action with
      | none => 0
      | some next => cost step price next rest

section

variable {step : State → Action → Option State} {allowed : State → Action → Prop}

@[simp]
theorem exec_nil (state : State) : exec step state [] = some state := rfl

variable {state final : State}

theorem exec_cons_eq_some {action : Action} {rest : List Action} :
    exec step state (action :: rest) = some final ↔
      ∃ next, step state action = some next ∧ exec step next rest = some final := by
  simp [exec, Option.bind_eq_some_iff]

theorem exec_append_eq_some {first second : List Action} :
    exec step state (first ++ second) = some final ↔
      ∃ middle, exec step state first = some middle ∧ exec step middle second = some final := by
  induction first generalizing state with
  | nil => simp
  | cons action first ih =>
    simp only [List.cons_append, exec_cons_eq_some, ih]
    constructor
    · rintro ⟨next, taken, middle, before, after⟩
      exact ⟨middle, ⟨next, taken, before⟩, after⟩
    · rintro ⟨middle, ⟨next, taken, before⟩, after⟩
      exact ⟨next, taken, middle, before, after⟩

/-- Whether a run is allowed can be computed. -/
instance decidableAlong [∀ state action, Decidable (allowed state action)] :
    ∀ (state : State) (actions : List Action), Decidable (Along step allowed state actions)
  | _, [] => isTrue trivial
  | state, action :: rest =>
    match taken : step state action with
    | none =>
      decidable_of_iff (allowed state action) (by simp [Along, taken])
    | some next =>
      have := decidableAlong next rest
      decidable_of_iff (allowed state action ∧ Along step allowed next rest)
        (by simp [Along, taken])

variable {actions : List Action}

/-- A condition on the actions alone holds along every run of such actions. -/
theorem along_of_forall_mem {good : Action → Prop} (each : ∀ action ∈ actions, good action)
    (state : State) : Along step (fun _ action => good action) state actions := by
  induction actions generalizing state with
  | nil => trivial
  | cons action rest ih =>
    obtain ⟨first, later⟩ := List.forall_mem_cons.mp each
    exact ⟨first, fun next _ => ih later next⟩

theorem along_and {first second : State → Action → Prop} (one : Along step first state actions)
    (other : Along step second state actions) :
    Along step (fun state action => first state action ∧ second state action) state actions := by
  induction actions generalizing state with
  | nil => trivial
  | cons action rest ih =>
    exact ⟨⟨one.1, other.1⟩, fun next taken =>
      ih (one.2 next taken) (other.2 next taken)⟩

/-- What every allowed step preserves, every allowed run preserves. -/
theorem exec_preserves (Inv : State → Prop)
    (preserved : ∀ state action next, Inv state → allowed state action →
      step state action = some next → Inv next) (start : Inv state)
    (along : Along step allowed state actions) (run : exec step state actions = some final) :
    Inv final := by
  induction actions generalizing state with
  | nil =>
    simp only [exec_nil, Option.some.injEq] at run
    exact run ▸ start
  | cons action rest ih =>
    obtain ⟨next, taken, remaining⟩ := exec_cons_eq_some.mp run
    exact ih (preserved state action next start along.1 taken)
      (along.2 next taken) remaining

variable {good : State → Action → Prop}

/-- What holds of every allowed step from a state of the invariant holds of
every step of an allowed run. -/
theorem along_of_invariant (Inv : State → Prop)
    (preserved : ∀ state action next, Inv state → allowed state action →
      step state action = some next → Inv next)
    (holds : ∀ state action, Inv state → allowed state action → good state action)
    (start : Inv state) (along : Along step allowed state actions) :
    Along step good state actions := by
  induction actions generalizing state with
  | nil => trivial
  | cons action rest ih =>
    refine ⟨holds state action start along.1, fun next taken => ?_⟩
    exact ih (preserved state action next start along.1 taken)
      (along.2 next taken)

/-- What every step preserves, every run preserves. -/
theorem exec_preserves_always (Inv : State → Prop)
    (preserved : ∀ state action next, Inv state → step state action = some next → Inv next)
    (start : Inv state) (run : exec step state actions = some final) : Inv final := by
  have free : Along step (fun _ _ => True) state actions :=
    along_of_forall_mem (fun _ _ => trivial) state
  exact exec_preserves Inv (fun state action next kept _ => preserved state action next kept)
    start free run

variable {price : State → Action → Nat}

/-- The potential method: what each allowed step costs is paid by its credit and by the potential
it uses up, so the costs of a run are paid by its credits and the potential at the start. -/
theorem cost_add_potential_le (potential : State → Nat) {credit : State → Action → Nat}
    (paid : ∀ state action next, allowed state action → step state action = some next →
      price state action + potential next ≤ credit state action + potential state)
    (along : Along step allowed state actions) (run : exec step state actions = some final) :
    cost step price state actions + potential final ≤
      cost step credit state actions + potential state := by
  induction actions generalizing state with
  | nil =>
    simp only [exec_nil, Option.some.injEq] at run
    simp [cost, run]
  | cons action rest ih =>
    obtain ⟨next, taken, remaining⟩ := exec_cons_eq_some.mp run
    have once := paid state action next along.1 taken
    have later := ih (along.2 next taken) remaining
    simp only [cost, taken]
    omega

/-- A counter that every step raises by its price, up to a bound, counts the cost of the run. -/
theorem saturating_cost (Inv : State → Prop) (counter : State → Nat) {bound : Nat}
    (preserved : ∀ state action next, Inv state → step state action = some next → Inv next)
    (counts : ∀ state action next, Inv state → counter state ≤ bound →
      step state action = some next → counter next = min (counter state + price state action) bound)
    (start : Inv state) (small : counter state ≤ bound)
    (run : exec step state actions = some final) :
    counter final = min (counter state + cost step price state actions) bound := by
  induction actions generalizing state with
  | nil =>
    cases run
    simp [cost, small]
  | cons action rest ih =>
    obtain ⟨next, taken, remaining⟩ := exec_cons_eq_some.mp run
    have once := counts state action next start small taken
    have later := ih (preserved state action next start taken) (by omega)
      remaining
    simp only [cost, taken]
    omega

theorem cost_add {first second : State → Action → Nat} :
    cost step (fun state action => first state action + second state action) state actions =
      cost step first state actions + cost step second state actions := by
  induction actions generalizing state with
  | nil => rfl
  | cons action rest ih =>
    simp only [cost]
    cases step state action with
    | none =>
      dsimp only
      omega
    | some next =>
      simp only [ih]
      omega

/-- A run whose steps are allowed steps of another machine is an allowed run of that machine. -/
theorem exec_of_refines {Action' : Type v} {step' : State → Action' → Option State}
    (refines : ∀ state action next, step' state action = some next →
      ∃ other, allowed state other ∧ step state other = some next) {actions : List Action'}
    (run : exec step' state actions = some final) :
    ∃ others, others.length = actions.length ∧ Along step allowed state others ∧
      exec step state others = some final := by
  induction actions generalizing state with
  | nil => exact ⟨[], rfl, trivial, run⟩
  | cons action rest ih =>
    obtain ⟨next, taken, remaining⟩ := exec_cons_eq_some.mp run
    obtain ⟨other, fine, same⟩ := refines state action next taken
    obtain ⟨others, length, along, later⟩ := ih remaining
    refine ⟨other :: others, congrArg (· + 1) length, ⟨fine, fun following reached => ?_⟩,
      exec_cons_eq_some.mpr ⟨next, same, later⟩⟩
    cases same.symm.trans reached
    exact along

theorem length_add_potential_le (potential : State → Nat)
    (lowers : ∀ state action next, step state action = some next →
      potential next < potential state) (run : exec step state actions = some final) :
    actions.length + potential final ≤ potential state := by
  induction actions generalizing state with
  | nil =>
    cases run
    exact Nat.le_of_eq (Nat.zero_add _)
  | cons action rest ih =>
    obtain ⟨next, taken, remaining⟩ := exec_cons_eq_some.mp run
    have less := lowers state action next taken
    have bound := ih remaining
    rw [List.length_cons]
    omega

end

end Lib.Run
