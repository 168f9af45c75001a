import KrabkaGateway.Lib.Run
import KrabkaGateway.Lib.Trace
import Mathlib.Data.List.Nodup

/-!
# An ordered window

A loop takes one item after another. The result of an item is known at once, or it
comes later while the item waits in a window, or the item is a barrier: it waits
until the window is empty and is worked on alone. Items that wait get their results
in any order; the window gives them out in the order of the items, and it is emptied
when it is full, before a barrier and at the end. In every run the results are those
of the items, in their order.
-/

namespace Lib.Window

variable {Item Hint Result : Type}

inductive Kind (Result : Type) where
  | settled (result : Result)
  | windowed
  | barrier
  deriving DecidableEq, Repr

/-- What follows when the window is empty. -/
inductive Purpose (Item : Type) where
  | loop
  | barrier (item : Item)
  | finish
  deriving DecidableEq, Repr

inductive Phase (Item : Type) where
  | next
  /-- An item is on its way into the window. -/
  | admitting (item : Item)
  | draining (purpose : Purpose Item)
  /-- A barrier is worked on. -/
  | alone (item : Item)
  | returned
  deriving DecidableEq, Repr

inductive Event (Item Result : Type) where
  | started (position : Nat) (item : Item) (kind : Kind Result)
  | admitted (position : Nat)
  | finished (position : Nat) (result : Result)
  deriving DecidableEq, Repr

/-- `taken`, the positions in the window and the trace are history. -/
structure State (Item Result : Type) where
  rest : List Item
  taken : Nat
  pending : List (Nat × Option Result)
  results : List Result
  phase : Phase Item
  trace : List (Event Item Result)

inductive Action (Hint Result : Type) where
  | take (hint : Hint)
  | close
  | enter
  /-- The item does not get into the window. -/
  | refuse (result : Result)
  | complete (index : Nat) (result : Result)
  | yield
  | drained
  | done (result : Result)
  deriving Repr

namespace State

def start (items : List Item) : State Item Result where
  rest := items
  taken := 0
  pending := []
  results := []
  phase := .next
  trace := []

variable (capacity : Nat) (classify : Item → Hint → Kind Result)

/-- Put an entry at the end of the window, which is emptied if it is full now. -/
def push (state : State Item Result) (entry : Nat × Option Result) : State Item Result :=
  { state with
    pending := state.pending ++ [entry]
    phase := if state.pending.length + 1 = capacity then .draining .loop else .next }

def log (state : State Item Result) (events : List (Event Item Result)) : State Item Result :=
  { state with trace := state.trace ++ events }

def current (state : State Item Result) : Nat :=
  state.taken - 1

def take (state : State Item Result) (item : Item) (rest : List Item) (hint : Hint) :
    State Item Result :=
  let state := { state with rest, taken := state.taken + 1 }
  match classify item hint with
  | .settled result =>
    (state.log [.started state.current item (.settled result),
      .finished state.current result]).push capacity (state.current, some result)
  | .windowed => { state.log [.started state.current item .windowed] with phase := .admitting item }
  | .barrier => { state with phase := .draining (.barrier item) }

def step (state : State Item Result) : Action Hint Result → Option (State Item Result)
  | .take hint =>
    match state.phase, state.rest with
    | .next, item :: rest => some (state.take capacity classify item rest hint)
    | _, _ => none
  | .close =>
    match state.phase, state.rest with
    | .next, [] => some { state with phase := .draining .finish }
    | _, _ => none
  | .enter =>
    match state.phase with
    | .admitting _ =>
      some ((state.log [.admitted state.current]).push capacity (state.current, none))
    | _ => none
  | .refuse result =>
    match state.phase with
    | .admitting _ =>
      some ((state.log [.finished state.current result]).push capacity
        (state.current, some result))
    | _ => none
  | .complete index result =>
    match state.pending[index]? with
    | some (position, none) =>
      some ({ state with pending := state.pending.set index (position, some result) }.log
        [.finished position result])
    | _ => none
  | .yield =>
    match state.phase, state.pending with
    | .draining _, (_, some result) :: pending =>
      some { state with pending, results := state.results ++ [result] }
    | _, _ => none
  | .drained =>
    match state.phase, state.pending with
    | .draining .loop, [] => some { state with phase := .next }
    | .draining (.barrier item), [] =>
      some { state.log [.started state.current item .barrier] with phase := .alone item }
    | .draining .finish, [] => some { state with phase := .returned }
    | _, _ => none
  | .done result =>
    match state.phase with
    | .alone _ =>
      some { state.log [.finished state.current result] with
        results := state.results ++ [result]
        phase := .next }
    | _ => none

/-- The results that are known, by position. -/
def answers (state : State Item Result) : List (Option Result) :=
  state.results.map some ++ state.pending.map Prod.snd

end State

section

variable {capacity : Nat} {classify : Item → Hint → Kind Result} {state next : State Item Result}
  {action : Action Hint Result}

variable (capacity classify state) in
/-- What one step can be. -/
inductive Moves : Action Hint Result → State Item Result → Prop where
  | take {item rest hint} (phase : state.phase = .next) (more : state.rest = item :: rest) :
      Moves (.take hint) (state.take capacity classify item rest hint)
  | close (phase : state.phase = .next) (ended : state.rest = []) :
      Moves .close { state with phase := .draining .finish }
  | enter {item} (phase : state.phase = .admitting item) :
      Moves .enter ((state.log [.admitted state.current]).push capacity (state.current, none))
  | refuse {item result} (phase : state.phase = .admitting item) :
      Moves (.refuse result)
        ((state.log [.finished state.current result]).push capacity (state.current, some result))
  | complete {index position result} (found : state.pending[index]? = some (position, none)) :
      Moves (.complete index result)
        ({ state with pending := state.pending.set index (position, some result) }.log
          [.finished position result])
  | yield {position result pending} (first : state.pending = (position, some result) :: pending) :
      Moves .yield { state with pending, results := state.results ++ [result] }
  | loop (phase : state.phase = .draining .loop) (empty : state.pending = []) :
      Moves .drained { state with phase := .next }
  | barrier {item} (phase : state.phase = .draining (.barrier item)) (empty : state.pending = []) :
      Moves .drained
        { state.log [.started state.current item .barrier] with phase := .alone item }
  | finish (phase : state.phase = .draining .finish) (empty : state.pending = []) :
      Moves .drained { state with phase := .returned }
  | done {item result} (phase : state.phase = .alone item) :
      Moves (.done result)
        { state.log [.finished state.current result] with
          results := state.results ++ [result]
          phase := .next }

theorem moves_of_step (taken : state.step capacity classify action = some next) :
    Moves capacity classify state action next := by
  -- In every other case the step is not possible.
  cases action <;> simp only [State.step] at taken <;> split at taken <;> cases taken
  · exact .take ‹_› ‹_›
  · exact .close ‹_› ‹_›
  · exact .enter ‹_›
  · exact .refuse ‹_›
  · exact .complete ‹_›
  · exact .yield ‹_›
  · exact .loop ‹_› ‹_›
  · exact .barrier ‹_› ‹_›
  · exact .finish ‹_› ‹_›
  · exact .done ‹_›

end

/-! ## What a trace tells -/

def startedPositions (trace : List (Event Item Result)) : List Nat :=
  trace.filterMap fun
    | .started position _ _ => some position
    | _ => none

def admittedPositions (trace : List (Event Item Result)) : List Nat :=
  trace.filterMap fun
    | .admitted position => some position
    | _ => none

def finishedPositions (trace : List (Event Item Result)) : List Nat :=
  trace.filterMap fun
    | .finished position _ => some position
    | _ => none

/-- An item that starts is the one at its position. A barrier starts after all items before it have
finished, and nothing starts while a barrier is worked on. -/
def Orderly (classify : Item → Hint → Kind Result) (items : List Item) :
    Event Item Result → List (Event Item Result) → Prop
  | .started position item kind, before =>
    items[position]? = some item ∧ (∃ hint, kind = classify item hint) ∧
      (kind = .barrier → ∀ earlier < position, ∃ result, .finished earlier result ∈ before) ∧
      ∀ earlier other, .started earlier other .barrier ∈ before →
        ∃ result, .finished earlier result ∈ before
  | _, _ => True

/-- The trace says what the answers are. `started` items have started, of which `solo` is a barrier
that is worked on. -/
structure Story (classify : Item → Hint → Kind Result) (items : List Item)
    (trace : List (Event Item Result)) (answers : List (Option Result)) (started : Nat)
    (solo : Option Nat) : Prop where
  finished : ∀ position result, .finished position result ∈ trace ↔
    answers[position]? = some (some result)
  once : (finishedPositions trace).Nodup
  started : startedPositions trace = List.range started
  admitted : (admittedPositions trace).Pairwise (· < ·)
  below : ∀ position ∈ admittedPositions trace, position < answers.length
  barriers : ∀ position item, .started position item .barrier ∈ trace →
    (∃ result, .finished position result ∈ trace) ∨ solo = some position
  ordered : Whenever (Orderly classify items) trace

variable {Entry : Type} {index : Nat} {entries : List Entry} {entry : Entry}

theorem getElem?_concat_eq_some {other : Entry} : (entries ++ [entry])[index]? = some other ↔
      entries[index]? = some other ∨ index = entries.length ∧ other = entry := by
  rcases Nat.lt_trichotomy index entries.length with less | rfl | greater
  · rw [List.getElem?_append_left less]
    simp [Nat.ne_of_lt less]
  · simp [eq_comm]
  · have beyond : (entries ++ [entry]).length ≤ index := by
      rw [List.length_append]
      exact greater
    rw [List.getElem?_eq_none beyond, List.getElem?_eq_none (Nat.le_of_lt greater)]
    simp [Nat.ne_of_gt greater]

theorem filterMap_concat_none {Value : Type} {read : Entry → Option Value}
    (silent : read entry = none) (entries : List Entry) :
    (entries ++ [entry]).filterMap read = entries.filterMap read := by
  simp [silent]

theorem set_eq_self (found : entries[index]? = some entry) : entries.set index entry = entries := by
  obtain ⟨bound, rfl⟩ := List.getElem?_eq_some_iff.mp found
  exact List.set_getElem_self bound

section Story

variable {classify : Item → Hint → Kind Result} {items : List Item}
  {trace : List (Event Item Result)} {answers : List (Option Result)} {started : Nat}
  {solo : Option Nat}

theorem story_start : Story classify items [] [] 0 none where
  finished := by simp
  once := List.nodup_nil
  started := rfl
  admitted := List.Pairwise.nil
  below := by simp [admittedPositions]
  barriers := by simp
  ordered := whenever_nil

variable {position : Nat}

theorem mem_finishedPositions :
    position ∈ finishedPositions trace ↔ ∃ result, .finished position result ∈ trace := by
  rw [finishedPositions, List.mem_filterMap]
  constructor
  · rintro ⟨event, member, found⟩
    cases event with
    | finished other result =>
      cases found
      exact ⟨result, member⟩
    | _ => cases found
  · rintro ⟨result, member⟩
    exact ⟨_, member, rfl⟩

/-- An item gets its result. -/
theorem Story.finish (story : Story classify items trace answers started solo) {result : Result}
    {answers' : List (Option Result)} (unknown : ∀ known, answers[position]? ≠ some (some known))
    (length : answers.length ≤ answers'.length)
    (same : ∀ other known, answers'[other]? = some (some known) ↔
      answers[other]? = some (some known) ∨ other = position ∧ known = result) {solo' : Option Nat}
    (ends : ∀ other, solo = some other → solo' = some other ∨ other = position) :
    Story classify items (trace ++ [.finished position result]) answers' started solo' where
  finished other known := by
    rw [List.mem_append, story.finished, same, List.mem_singleton, Event.finished.injEq]
  once := by
    have fresh : position ∉ finishedPositions trace := by
      intro member
      obtain ⟨known, member⟩ := mem_finishedPositions.mp member
      exact unknown known ((story.finished position known).mp member)
    rw [finishedPositions, List.filterMap_append]
    exact List.nodup_append.mpr ⟨story.once, List.nodup_singleton _,
      fun _ old _ new => by
        rw [List.mem_singleton.mp new]
        exact fun same => fresh (same ▸ old)⟩
  started := by
    rw [startedPositions, filterMap_concat_none rfl]
    exact story.started
  admitted := by
    rw [admittedPositions, filterMap_concat_none rfl]
    exact story.admitted
  below other member := by
    rw [admittedPositions, filterMap_concat_none rfl] at member
    exact Nat.lt_of_lt_of_le (story.below other member) length
  barriers other item member := by
    have old : .started other item .barrier ∈ trace := by simpa using member
    rcases story.barriers other item old with ⟨known, finished⟩ | alone
    · exact Or.inl ⟨known, List.mem_append_left _ finished⟩
    · rcases ends other alone with still | rfl
      · exact Or.inr still
      · exact Or.inl ⟨result, by simp⟩
  ordered := story.ordered.concat trivial

variable {item : Item} {kind : Kind Result}

/-- The next item starts; a barrier only if all before it have their results. -/
theorem Story.begin (story : Story classify items trace answers started none)
    (found : items[started]? = some item) (chosen : ∃ hint, kind = classify item hint)
    (quiet : kind = .barrier → ∀ earlier < started, ∃ result,
      answers[earlier]? = some (some result)) (alone : kind = .barrier → solo = some started) :
    Story classify items (trace ++ [.started started item kind]) answers (started + 1) solo where
  finished position result := by
    rw [List.mem_append, story.finished]
    simp
  once := by
    rw [finishedPositions, filterMap_concat_none rfl]
    exact story.once
  started := by
    have positions := story.started
    rw [startedPositions] at positions
    rw [startedPositions, List.filterMap_append, positions, List.range_succ]
    rfl
  admitted := by
    rw [admittedPositions, filterMap_concat_none rfl]
    exact story.admitted
  below position member := by
    rw [admittedPositions, filterMap_concat_none rfl] at member
    exact story.below position member
  barriers position other member := by
    rcases List.mem_append.mp member with old | new
    · rcases story.barriers position other old with ⟨result, finished⟩ | ⟨⟨⟩⟩
      exact Or.inl ⟨result, List.mem_append_left _ finished⟩
    · cases List.mem_singleton.mp new
      exact Or.inr (alone rfl)
  ordered := by
    refine story.ordered.concat ⟨found, chosen, fun barrier earlier less => ?_, ?_⟩
    · obtain ⟨result, answered⟩ := quiet barrier earlier less
      exact ⟨result, (story.finished earlier result).mpr answered⟩
    · intro earlier other member
      rcases story.barriers earlier other member with finished | ⟨⟨⟩⟩
      exact finished

theorem Story.enter (story : Story classify items trace answers started solo) :
    Story classify items (trace ++ [.admitted answers.length]) (answers ++ [none]) started
      solo where
  finished position result := by
    rw [List.mem_append, story.finished, getElem?_concat_eq_some]
    simp
  once := by
    rw [finishedPositions, filterMap_concat_none rfl]
    exact story.once
  started := by
    rw [startedPositions, filterMap_concat_none rfl]
    exact story.started
  admitted := by
    rw [admittedPositions, List.filterMap_append]
    exact List.pairwise_append.mpr ⟨story.admitted, List.pairwise_singleton _ _,
      fun _ old _ new => List.mem_singleton.mp new ▸ story.below _ old⟩
  below position member := by
    rw [admittedPositions, List.filterMap_append] at member
    rw [List.length_append]
    rcases List.mem_append.mp member with old | new
    · exact Nat.lt_succ_of_lt (story.below position old)
    · cases List.mem_singleton.mp new
      exact Nat.lt_succ_self _
  barriers position item member := by
    have old : .started position item .barrier ∈ trace := by simpa using member
    refine (story.barriers position item old).imp_left ?_
    rintro ⟨result, finished⟩
    exact ⟨result, List.mem_append_left _ finished⟩
  ordered := story.ordered.concat trivial

/-- A barrier has finished when a later item starts. -/
theorem Story.barrier_finished (story : Story classify items trace answers started solo)
    {later : Nat} {other : Item} (barrier : .started position item .barrier ∈ trace)
    (behind : position < later) {before after : List (Event Item Result)}
    (split : trace = before ++ .started later other kind :: after) :
    ∃ result, .finished position result ∈ before := by
  have known := story.ordered before _ after split
  refine known.2.2.2 position item ?_
  -- Items start in their order, so the barrier cannot come after the later item.
  have increasing : (startedPositions trace).Pairwise (· < ·) :=
    story.started ▸ List.pairwise_lt_range
  rw [split, startedPositions, List.filterMap_append, List.filterMap_cons] at increasing
  rw [split] at barrier
  rcases List.mem_append.mp barrier with first | last
  · exact first
  · exfalso
    rcases List.mem_cons.mp last with same | last
    · cases same
      exact Nat.lt_irrefl _ behind
    · have above := List.rel_of_pairwise_cons (List.pairwise_append.mp increasing).2.1
        (List.mem_filterMap.mpr ⟨_, last, rfl⟩)
      exact Nat.lt_asymm behind above

end Story

end Lib.Window
