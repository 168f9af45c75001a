import KrabkaGateway.Lib.Run
import KrabkaGateway.Lib.Trace
import Mathlib.Data.List.Nodup
import Mathlib.Algebra.BigOperators.Group.List.Basic
import Mathlib.Algebra.Ring.Nat

/-!
# Queues side by side

Several queues of items are worked off side by side. Of each queue the first item
takes one step after another until it is finished, and then the next one begins;
the steps of different queues interleave in any way. What an item shows of itself
goes to one trace. In every run each item goes through a run of its own, as if it
were alone, and it shows nothing before the items ahead of it are finished.
-/

namespace Lib.Lanes

variable {Item Phase Action Event : Type}

/-- What becomes of an item in one step: its next phase, or `none` at its end, and what it shows. -/
structure Task (Item Phase Action Event : Type) where
  begin : Phase
  step : Item → Phase → Action → Option (Option Phase × List Event)

/-- An item by itself can be in this phase, or at its end, having shown these events. -/
inductive Seen (task : Task Item Phase Action Event) (item : Item) :
    Option Phase → List Event → Prop where
  | begin : Seen task item (some task.begin) []
  | step {phase action next events shown} (before : Seen task item (some phase) events)
      (taken : task.step item phase action = some (next, shown)) :
      Seen task item next (events ++ shown)

/-- A queue whose first item is in a phase of its run. -/
structure Lane (Item Phase : Type) where
  phase : Phase
  items : List Item

structure State (Item Phase Event : Type) where
  lanes : List (Lane Item Phase)
  trace : List (Item × Event)

def Lane.step (task : Task Item Phase Action Event) (lane : Lane Item Phase) (action : Action) :
    Option (Lane Item Phase × List (Item × Event)) :=
  match lane.items with
  | [] => none
  | item :: rest =>
    match task.step item lane.phase action with
    | none => none
    | some (some next, shown) =>
      some ({ phase := next, items := item :: rest }, shown.map fun event => (item, event))
    | some (none, shown) =>
      some ({ phase := task.begin, items := rest }, shown.map fun event => (item, event))

namespace State

def start (task : Task Item Phase Action Event) (queues : List (List Item)) :
    State Item Phase Event where
  lanes := queues.map fun items => { phase := task.begin, items }
  trace := []

/-- The queue at an index takes a step. -/
def step (task : Task Item Phase Action Event) (state : State Item Phase Event)
    (action : Nat × Action) : Option (State Item Phase Event) := do
  let lane ← state.lanes[action.1]?
  let (next, shown) ← lane.step task action.2
  return { lanes := state.lanes.set action.1 next, trace := state.trace ++ shown }

def done (state : State Item Phase Event) : Prop :=
  ∀ lane ∈ state.lanes, lane.items = []

end State

variable {task : Task Item Phase Action Event}

theorem Lane.step_eq_some {lane next : Lane Item Phase} {action : Action}
    {shown : List (Item × Event)} (taken : lane.step task action = some (next, shown)) :
    ∃ item rest after events, lane.items = item :: rest ∧
      task.step item lane.phase action = some (after, events) ∧
      shown = events.map (fun event => (item, event)) ∧
      next = (match after with
        | some phase => { phase, items := item :: rest }
        | none => { phase := task.begin, items := rest }) := by
  unfold Lane.step at taken
  split at taken
  · cases taken
  · rename_i item rest items
    split at taken
    · cases taken
    · rename_i phase events own
      cases taken
      exact ⟨item, rest, some phase, events, items, own, rfl, rfl⟩
    · rename_i events own
      cases taken
      exact ⟨item, rest, none, events, items, own, rfl, rfl⟩

variable {state : State Item Phase Event}

theorem State.step_eq_some {next : State Item Phase Event} {action : Nat × Action}
    (taken : state.step task action = some next) :
    ∃ lane after shown, state.lanes[action.1]? = some lane ∧
      lane.step task action.2 = some (after, shown) ∧
      next = { lanes := state.lanes.set action.1 after, trace := state.trace ++ shown } := by
  unfold State.step at taken
  obtain ⟨lane, found, taken⟩ := Option.bind_eq_some_iff.mp taken
  obtain ⟨⟨after, shown⟩, own, taken⟩ := Option.bind_eq_some_iff.mp taken
  cases taken
  exact ⟨lane, after, shown, found, own, rfl⟩

/-- An item is in one queue only, and there once. -/
structure Apart (queues : List (List Item)) : Prop where
  distinct : ∀ queue ∈ queues, queue.Nodup
  disjoint : ∀ (i j : Nat) (first second : List Item), queues[i]? = some first →
    queues[j]? = some second → ∀ item ∈ first, item ∈ second → i = j

theorem apart_of_nodup {queues : List (List Item)} (distinct : queues.flatten.Nodup) :
    Apart queues := by
  obtain ⟨each, pairwise⟩ := List.nodup_flatten.mp distinct
  refine ⟨each, fun i j first second atI atJ item inFirst inSecond => ?_⟩
  obtain ⟨boundI, rfl⟩ := List.getElem?_eq_some_iff.mp atI
  obtain ⟨boundJ, rfl⟩ := List.getElem?_eq_some_iff.mp atJ
  rcases Nat.lt_trichotomy i j with less | same | greater
  · exact absurd inSecond (List.pairwise_iff_getElem.mp pairwise i j boundI boundJ less inFirst)
  · exact same
  · exact absurd inFirst (List.pairwise_iff_getElem.mp pairwise j i boundJ boundI greater inSecond)

/-! ## What an item shows -/

section Shown

variable [DecidableEq Item]

def shownBy (item : Item) (trace : List (Item × Event)) : List Event :=
  trace.filterMap fun entry => if entry.1 = item then some entry.2 else none

theorem shownBy_append (item : Item) (first second : List (Item × Event)) :
    shownBy item (first ++ second) = shownBy item first ++ shownBy item second :=
  List.filterMap_append

theorem shownBy_own (item : Item) (events : List Event) :
    shownBy item (events.map fun event => (item, event)) = events := by
  simp [shownBy, List.filterMap_map]

variable {item : Item}

theorem shownBy_append_others {entries : List (Item × Event)}
    (others : ∀ entry ∈ entries, entry.1 ≠ item) (trace : List (Item × Event)) :
    shownBy item (trace ++ entries) = shownBy item trace := by
  have none : shownBy item entries = [] := by
    rw [shownBy, List.filterMap_eq_nil_iff]
    exact fun entry member => if_neg (others entry member)
  rw [shownBy_append, none, List.append_nil]

/-! ## One lane -/

variable (task) in
structure Follows (trace : List (Item × Event)) (queue finished : List Item)
    (lane : Lane Item Phase) : Prop where
  split : queue = finished ++ lane.items
  ended : ∀ item ∈ finished, Seen task item none (shownBy item trace)
  current : ∀ item rest, lane.items = item :: rest →
    Seen task item (some lane.phase) (shownBy item trace)
  waiting : ∀ item rest, lane.items = item :: rest → ∀ later ∈ rest, shownBy later trace = []

theorem follows_start (queue : List Item) :
    Follows task [] queue [] { phase := task.begin, items := queue } where
  split := rfl
  ended := by simp
  current _ _ _ := .begin
  waiting _ _ _ _ _ := rfl

variable {queue : List Item} {lane : Lane Item Phase}

theorem Follows.apart {trace shown : List (Item × Event)} {finished : List Item}
    (follows : Follows task trace queue finished lane) (others : ∀ entry ∈ shown, entry.1 ∉ queue) :
    Follows task (trace ++ shown) queue finished lane := by
  have same : ∀ item ∈ queue, shownBy item (trace ++ shown) = shownBy item trace := by
    intro item member
    exact shownBy_append_others (fun entry listed same => others entry listed (same ▸ member)) trace
  constructor
  · exact follows.split
  · intro item member
    rw [same item (follows.split ▸ List.mem_append_left _ member)]
    exact follows.ended item member
  · intro item rest items
    rw [same item (by rw [follows.split, items]; simp)]
    exact follows.current item rest items
  · intro item rest items later member
    rw [same later (by rw [follows.split, items]; simp [member])]
    exact follows.waiting item rest items later member

theorem Follows.step {trace shown : List (Item × Event)} {finished : List Item}
    {next : Lane Item Phase} {action : Action} (distinct : queue.Nodup)
    (follows : Follows task trace queue finished lane)
    (taken : lane.step task action = some (next, shown)) :
    ∃ finished', Follows task (trace ++ shown) queue finished' next := by
  obtain ⟨item, rest, after, events, items, own, rfl, rfl⟩ := Lane.step_eq_some taken
  have split := follows.split
  rw [items] at split
  have fresh : ∀ other, other ∈ finished ∨ other ∈ rest → item ≠ other := by
    rw [split, List.nodup_middle, List.nodup_cons, List.mem_append] at distinct
    rintro other listed rfl
    exact distinct.1 listed
  have same : ∀ other, other ∈ finished ∨ other ∈ rest →
      shownBy other (trace ++ events.map fun event => (item, event)) = shownBy other trace := by
    intro other listed
    refine shownBy_append_others (fun entry member => ?_) trace
    obtain ⟨_, _, rfl⟩ := List.mem_map.mp member
    exact fresh other listed
  have ended : ∀ other ∈ finished, Seen task other none
      (shownBy other (trace ++ events.map fun event => (item, event))) := by
    intro other member
    rw [same other (Or.inl member)]
    exact follows.ended other member
  have now : Seen task item after
      (shownBy item (trace ++ events.map fun event => (item, event))) := by
    rw [shownBy_append, shownBy_own]
    exact .step (follows.current item rest items) own
  have quiet : ∀ later ∈ rest,
      shownBy later (trace ++ events.map fun event => (item, event)) = [] := by
    intro later member
    rw [same later (Or.inr member)]
    exact follows.waiting item rest items later member
  cases after with
  | some phase =>
    refine ⟨finished, split, ended, ?_, ?_⟩
    · rintro _ _ ⟨⟩
      exact now
    · rintro _ _ ⟨⟩
      exact quiet
  | none =>
    refine ⟨finished ++ [item], ?_, ?_, ?_, ?_⟩
    · rw [split, List.append_assoc, List.singleton_append]
    · intro other member
      rcases List.mem_append.mp member with old | new
      · exact ended other old
      · cases List.mem_singleton.mp new
        exact now
    · intro next later items
      rw [quiet next (by rw [show rest = next :: later from items]; simp)]
      exact .begin
    · intro next later items other member
      exact quiet other (by rw [show rest = next :: later from items]; simp [member])

/-! ## All lanes -/

variable (task) in
def AfterAhead (queues : List (List Item)) (entry : Item × Event) (before : List (Item × Event)) :
    Prop :=
  ∀ queue ∈ queues, ∀ ahead behind, queue = ahead ++ entry.1 :: behind →
    ∀ other ∈ ahead, Seen task other none (shownBy other before)

variable (task) in
/-- Every lane follows its queue, and no item showed anything before the items ahead of it were
finished. -/
structure Kept (queues : List (List Item)) (state : State Item Phase Event) : Prop where
  length : state.lanes.length = queues.length
  follows : ∀ (index : Nat) queue lane, queues[index]? = some queue →
    state.lanes[index]? = some lane → ∃ finished, Follows task state.trace queue finished lane
  ordered : Whenever (AfterAhead task queues) state.trace

theorem kept_start (queues : List (List Item)) : Kept task queues (State.start task queues) where
  length := List.length_map _
  follows index queue lane found own := by
    rw [State.start, List.getElem?_map, found] at own
    cases own
    exact ⟨[], follows_start queue⟩
  ordered := whenever_nil

section Step

variable {queues : List (List Item)} {state : State Item Phase Event} {index : Nat}
  {lane after : Lane Item Phase} {action : Action} {shown : List (Item × Event)}

variable (kept : Kept task queues state)
include kept

theorem Kept.queue_of (found : state.lanes[index]? = some lane) :
    ∃ queue finished, queues[index]? = some queue ∧
      Follows task state.trace queue finished lane := by
  have bound : index < queues.length := kept.length ▸ (List.getElem?_eq_some_iff.mp found).1
  have listed : queues[index]? = some queues[index] := List.getElem?_eq_getElem bound
  obtain ⟨finished, follows⟩ := kept.follows index _ lane listed found
  exact ⟨_, finished, listed, follows⟩

theorem Kept.follows_step (apart : Apart queues) (found : state.lanes[index]? = some lane)
    (taken : lane.step task action = some (after, shown)) (j : Nat) (queue : List Item)
    (other : Lane Item Phase) (listed : queues[j]? = some queue)
    (present : (state.lanes.set index after)[j]? = some other) :
    ∃ finished, Follows task (state.trace ++ shown) queue finished other := by
  obtain ⟨mine, finished, own, follows⟩ := kept.queue_of found
  by_cases same : index = j
  · subst same
    cases own.symm.trans listed
    rw [List.getElem?_set_self (List.getElem?_eq_some_iff.mp found).1] at present
    cases present
    exact follows.step (apart.distinct _ (List.mem_of_getElem? own)) taken
  · rw [List.getElem?_set_ne same] at present
    obtain ⟨finished, elsewhere⟩ := kept.follows j queue other listed present
    refine ⟨finished, elsewhere.apart fun entry member inside => same ?_⟩
    obtain ⟨item, rest, _, _, items, _, rfl, _⟩ := Lane.step_eq_some taken
    obtain ⟨_, _, rfl⟩ := List.mem_map.mp member
    refine apart.disjoint index j mine queue own listed item ?_ inside
    rw [follows.split, items]
    exact List.mem_append_right _ List.mem_cons_self

theorem Kept.ordered_step (apart : Apart queues) (found : state.lanes[index]? = some lane)
    (taken : lane.step task action = some (after, shown)) :
    Whenever (AfterAhead task queues) (state.trace ++ shown) := by
  obtain ⟨mine, finished, own, follows⟩ := kept.queue_of found
  obtain ⟨head, rest, _, events, items, _, rfl, _⟩ := Lane.step_eq_some taken
  have whole := follows.split
  rw [items] at whole
  -- All that is new is shown by the first item of the lane.
  refine kept.ordered.append
    fun more entry later new queue listed ahead behind split other member => ?_
  have tagged : ∀ entry ∈ events.map fun event => (head, event), entry.1 = head := by
    intro entry inside
    obtain ⟨_, _, rfl⟩ := List.mem_map.mp inside
    rfl
  rw [new] at tagged
  rw [tagged entry (by simp)] at split
  obtain ⟨j, atJ⟩ := List.getElem?_of_mem listed
  have same := apart.disjoint j index queue mine atJ own head (by simp [split]) (by simp [whole])
  rw [same] at atJ
  cases own.symm.trans atJ
  have distinct := apart.distinct _ listed
  rw [split, List.nodup_middle, List.nodup_cons, List.mem_append, not_or] at distinct
  obtain ⟨rfl, _⟩ := (List.append_cons_inj_of_notMem distinct.1.1 distinct.1.2).mp
    (split.symm.trans whole)
  rw [shownBy_append_others]
  · exact follows.ended other member
  · rintro entry inside rfl
    rw [tagged entry (List.mem_append_left _ inside)] at member
    exact distinct.1.1 member

theorem Kept.step {next : State Item Phase Event} {action : Nat × Action} (apart : Apart queues)
    (taken : state.step task action = some next) : Kept task queues next := by
  obtain ⟨lane, after, shown, found, own, rfl⟩ := State.step_eq_some taken
  exact ⟨List.length_set.trans kept.length, kept.follows_step apart found own,
    kept.ordered_step apart found own⟩

end Step

variable {queues : List (List Item)} {state : State Item Phase Event}

/-- Where all lanes are done, every item went through a run of its own, to its end. -/
theorem Kept.seen_of_done (kept : Kept task queues state) (done : state.done)
    (listed : queue ∈ queues) (member : item ∈ queue) :
    Seen task item none (shownBy item state.trace) := by
  obtain ⟨index, found⟩ := List.getElem?_of_mem listed
  have bound : index < state.lanes.length := kept.length ▸ (List.getElem?_eq_some_iff.mp found).1
  have present : state.lanes[index]? = some state.lanes[index] := List.getElem?_eq_getElem bound
  obtain ⟨finished, follows⟩ := kept.follows index queue _ found present
  apply follows.ended
  have whole := follows.split
  rw [done _ (List.getElem_mem bound), List.append_nil] at whole
  exact whole ▸ member

theorem kept_of_run (distinct : queues.flatten.Nodup) {actions : List (Nat × Action)}
    (run : Run.exec (State.step task) (State.start task queues) actions = some state) :
    Kept task queues state :=
  Run.exec_preserves_always (Kept task queues)
    (fun _ _ _ kept taken => kept.step (apart_of_nodup distinct) taken) (kept_start queues) run

end Shown

/-! ## How long it takes -/

structure Budget (task : Task Item Phase Action Event) where
  left : Item → Phase → Nat
  goesOn : ∀ {item phase action next shown},
    task.step item phase action = some (some next, shown) → left item next < left item phase
  ends : ∀ {item phase action shown},
    task.step item phase action = some (none, shown) → 0 < left item phase

namespace Budget

variable (budget : Budget task)

def queue (items : List Item) : Nat :=
  (items.map fun item => budget.left item task.begin).sum

def lane (lane : Lane Item Phase) : Nat :=
  match lane.items with
  | [] => 0
  | item :: rest => budget.left item lane.phase + budget.queue rest

def lanes (lanes : List (Lane Item Phase)) : Nat :=
  (lanes.map budget.lane).sum

theorem lane_begin (items : List Item) :
    budget.lane { phase := task.begin, items } = budget.queue items := by
  cases items <;> rfl

theorem lane_step {lane next : Lane Item Phase} {action : Action} {shown : List (Item × Event)}
    (taken : lane.step task action = some (next, shown)) : budget.lane next < budget.lane lane := by
  obtain ⟨item, rest, after, events, items, own, rfl, rfl⟩ := Lane.step_eq_some taken
  have before : budget.lane lane = budget.left item lane.phase + budget.queue rest := by
    rw [Budget.lane, items]
  rw [before]
  cases after with
  | some phase => exact Nat.add_lt_add_right (budget.goesOn own) _
  | none =>
    rw [lane_begin]
    exact Nat.lt_add_of_pos_left (budget.ends own)

theorem lanes_set {lanes : List (Lane Item Phase)} {index : Nat} {lane next : Lane Item Phase}
    (found : lanes[index]? = some lane) (less : budget.lane next < budget.lane lane) :
    budget.lanes (lanes.set index next) < budget.lanes lanes := by
  induction lanes generalizing index with
  | nil => cases found
  | cons first rest ih =>
    cases index with
    | zero =>
      cases found
      exact Nat.add_lt_add_right less _
    | succ index => exact Nat.add_lt_add_left (ih found) _

variable {actions : List (Nat × Action)} {final : State Item Phase Event}

theorem length_le (run : Run.exec (State.step task) state actions = some final) :
    actions.length + budget.lanes final.lanes ≤ budget.lanes state.lanes := by
  refine Run.length_add_potential_le (fun state => budget.lanes state.lanes) ?_ run
  intro state action next taken
  obtain ⟨lane, after, shown, found, own, rfl⟩ := State.step_eq_some taken
  exact budget.lanes_set found (budget.lane_step own)

/-- No run from the start is longer than the items may take. -/
theorem length_le_of_start {queues : List (List Item)}
    (run : Run.exec (State.step task) (State.start task queues) actions = some final) :
    actions.length ≤ budget.queue queues.flatten := by
  have bound := budget.length_le run
  have whole : budget.lanes (State.start task queues).lanes = budget.queue queues.flatten := by
    rw [lanes, State.start, List.map_map, queue, List.map_flatten, List.sum_flatten, List.map_map]
    exact congrArg List.sum (List.map_congr_left fun items _ => budget.lane_begin items)
  omega

end Budget

/-- A state that is not done has a step, if an item always has one. -/
theorem enabled_of_not_done (live : ∀ item phase, ∃ action, (task.step item phase action).isSome)
    (unfinished : ¬ state.done) : ∃ action, (state.step task action).isSome := by
  simp only [State.done, not_forall] at unfinished
  obtain ⟨lane, member, nonempty⟩ := unfinished
  obtain ⟨item, rest, items⟩ := List.exists_cons_of_ne_nil nonempty
  obtain ⟨index, found⟩ := List.getElem?_of_mem member
  obtain ⟨action, own⟩ := live item lane.phase
  obtain ⟨⟨after, shown⟩, taken⟩ := Option.isSome_iff_exists.mp own
  refine ⟨(index, action), ?_⟩
  cases after <;> simp [State.step, found, Lane.step, items, taken]

end Lib.Lanes
