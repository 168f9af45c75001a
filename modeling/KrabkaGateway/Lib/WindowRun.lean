import KrabkaGateway.Lib.Window

/-!
# Runs of an ordered window

What holds in every state of a run: the items that are taken are those in the window
and those that gave their result, at most one more is on its way, and the trace tells
all that is known. From it follows what the loop returns, how full the window gets
and how long a run is.
-/

namespace Lib.Window

variable {Item Hint Result : Type}

/-! ## The state of the loop -/

/-- Items that are taken and neither in the window nor done. -/
def Phase.holding : Phase Item → Nat
  | .admitting _ | .draining (.barrier _) | .alone _ => 1
  | _ => 0

/-- Items that are taken and have not started. -/
def Phase.unstarted : Phase Item → Nat
  | .draining (.barrier _) => 1
  | _ => 0

/-- Places in the window that must be free. -/
def Phase.room : Phase Item → Nat
  | .next | .admitting _ => 1
  | _ => 0

/-- The position of the barrier that is worked on. -/
def Phase.solo (current : Nat) : Phase Item → Option Nat
  | .alone _ => some current
  | _ => none

structure Shape (capacity : Nat) (classify : Item → Hint → Kind Result) (items : List Item)
    (state : State Item Result) : Prop where
  rest : state.rest = items.drop state.taken
  within : state.taken ≤ items.length
  count : state.taken = state.answers.length + state.phase.holding
  numbered : state.pending.map Prod.fst = List.range' state.results.length state.pending.length
  room : state.pending.length + state.phase.room ≤ capacity
  empty : (∃ item, state.phase = .alone item) ∨ state.phase = .returned → state.pending = []
  closed : state.phase = .draining .finish ∨ state.phase = .returned → state.rest = []
  held : ∀ item, state.phase = .draining (.barrier item) →
    items[state.current]? = some item ∧ ∃ hint, .barrier = classify item hint

/-- What holds in every state. -/
structure Kept (capacity : Nat) (classify : Item → Hint → Kind Result) (items : List Item)
    (state : State Item Result) : Prop where
  shape : Shape capacity classify items state
  story : Story classify items state.trace state.answers
    (state.taken - state.phase.unstarted) (state.phase.solo state.current)

section Kept

variable {capacity : Nat} {classify : Item → Hint → Kind Result} {items : List Item}
  {state : State Item Result}

theorem State.answers_length (state : State Item Result) :
    state.answers.length = state.results.length + state.pending.length := by
  simp [State.answers]

variable {phase : Phase Item}

theorem Kept.count_at (kept : Kept capacity classify items state) (now : state.phase = phase) :
    state.taken = state.answers.length + phase.holding :=
  now ▸ kept.shape.count

theorem Kept.story_at (kept : Kept capacity classify items state) (now : state.phase = phase) :
    Story classify items state.trace state.answers
      (state.taken - phase.unstarted) (phase.solo state.current) :=
  now ▸ kept.story

theorem State.current_eq {count : Nat} (taken : state.taken = count + 1) :
    state.current = count := by
  rw [State.current, taken, Nat.add_sub_cancel]

theorem kept_of_loop (loop : state.phase = .next ∨ state.phase = .draining .loop)
    (rest : state.rest = items.drop state.taken) (within : state.taken ≤ items.length)
    (count : state.taken = state.answers.length)
    (numbered : state.pending.map Prod.fst =
      List.range' state.results.length state.pending.length)
    (room : state.pending.length + state.phase.room ≤ capacity)
    (story : Story classify items state.trace state.answers state.taken none) :
    Kept capacity classify items state := by
  refine ⟨⟨rest, within, ?_, numbered, room, ?_, ?_, ?_⟩, ?_⟩
  · rcases loop with phase | phase <;> rw [phase] <;> exact count
  · rcases loop with phase | phase <;> rw [phase] <;> rintro (⟨_, ⟨⟩⟩ | ⟨⟨⟩⟩)
  · rcases loop with phase | phase <;> rw [phase] <;> rintro (⟨⟨⟩⟩ | ⟨⟨⟩⟩)
  · rcases loop with phase | phase <;> rw [phase] <;> rintro _ ⟨⟩
  · rcases loop with phase | phase <;> rw [phase] <;> exact story

theorem kept_start (positive : 0 < capacity) (items : List Item) :
    Kept capacity classify items (State.start items) :=
  kept_of_loop (Or.inl rfl) rfl (Nat.zero_le _) rfl rfl positive story_start

theorem State.phase_push (capacity : Nat) (state : State Item Result)
    (entry : Nat × Option Result) :
    (state.push capacity entry).phase = .draining .loop ∧ state.pending.length + 1 = capacity ∨
      (state.push capacity entry).phase = .next ∧ state.pending.length + 1 ≠ capacity := by
  unfold State.push
  by_cases full : state.pending.length + 1 = capacity
  · exact Or.inl ⟨if_pos full, full⟩
  · exact Or.inr ⟨if_neg full, full⟩

variable {entry : Option Result}

theorem kept_push (rest : state.rest = items.drop state.taken) (within : state.taken ≤ items.length)
    (count : state.taken = state.answers.length + 1) (numbered : state.pending.map Prod.fst =
      List.range' state.results.length state.pending.length)
    (room : state.pending.length + 1 ≤ capacity)
    (story : Story classify items state.trace (state.answers ++ [entry]) state.taken none) :
    Kept capacity classify items (state.push capacity (state.current, entry)) := by
  have position : state.current = state.results.length + state.pending.length :=
    (State.current_eq count).trans state.answers_length
  have answers : (state.push capacity (state.current, entry)).answers =
      state.answers ++ [entry] := by
    simp [State.answers, State.push]
  have whole : (state.push capacity (state.current, entry)).pending.length =
      state.pending.length + 1 := List.length_append
  have phase := state.phase_push capacity (state.current, entry)
  apply kept_of_loop
  · exact phase.symm.imp And.left And.left
  · exact rest
  · exact within
  · rw [answers, List.length_append]
    exact count
  · rw [whole]
    simp only [State.push, List.map_append, List.map_singleton, numbered, position]
    rw [List.range'_concat, Nat.one_mul]
  · rw [whole]
    rcases phase with ⟨phase, _⟩ | ⟨phase, notFull⟩ <;> rw [phase]
    · exact room
    · exact Nat.lt_of_le_of_ne room notFull
  · rw [answers]
    exact story

variable {trace : List (Event Item Result)} {answers : List (Option Result)}

theorem Story.finish_next {started : Nat} {solo : Option Nat}
    (story : Story classify items trace answers started solo) (result : Result)
    (ends : ∀ other, solo = some other → other = answers.length) :
    Story classify items (trace ++ [.finished answers.length result]) (answers ++ [some result])
      started none := by
  refine story.finish ?_ ?_ ?_ ?_
  · intro known found
    rw [List.getElem?_eq_none (Nat.le_refl _)] at found
    cases found
  · rw [List.length_append]
    exact Nat.le_add_right _ _
  · intro other known
    rw [getElem?_concat_eq_some, Option.some.injEq]
  · exact fun other alone => Or.inr (ends other alone)

variable {item : Item}

variable (kept : Kept capacity classify items state)
include kept

theorem Kept.take (phase : state.phase = .next) {rest : List Item}
    (more : state.rest = item :: rest) (hint : Hint) :
    Kept capacity classify items (state.take capacity classify item rest hint) := by
  have shape := kept.shape
  have story := kept.story_at phase
  have room := shape.room
  rw [phase] at room
  have dropped : items.drop state.taken = item :: rest := shape.rest.symm.trans more
  have found : items[state.taken]? = some item := by
    rw [← List.head?_drop, dropped, List.head?_cons]
  have after : rest = items.drop (state.taken + 1) := by
    rw [← List.tail_drop, dropped, List.tail_cons]
  have within : state.taken + 1 ≤ items.length := (List.getElem?_eq_some_iff.mp found).1
  have position : state.taken = state.answers.length := kept.count_at phase
  unfold State.take
  cases kind : classify item hint with
  | settled result =>
    have begun : Story classify items _ _ (state.taken + 1) none :=
      story.begin found ⟨hint, kind.symm⟩ (by rintro ⟨⟩) (by rintro ⟨⟩)
    have finished := begun.finish_next result (by rintro _ ⟨⟩)
    rw [List.append_assoc, ← position] at finished
    apply kept_push
    · exact after
    · exact within
    · exact congrArg (· + 1) position
    · exact shape.numbered
    · exact room
    · exact finished
  | windowed =>
    have begun : Story classify items _ _ (state.taken + 1) none :=
      story.begin found ⟨hint, kind.symm⟩ (by rintro ⟨⟩) (by rintro ⟨⟩)
    refine ⟨⟨after, within, congrArg (· + 1) position, shape.numbered, room, ?_, ?_, ?_⟩, begun⟩
    · rintro (⟨_, ⟨⟩⟩ | ⟨⟨⟩⟩)
    · rintro (⟨⟨⟩⟩ | ⟨⟨⟩⟩)
    · rintro _ ⟨⟩
  | barrier =>
    refine ⟨⟨after, within, congrArg (· + 1) position, shape.numbered, ?_, ?_, ?_, ?_⟩, story⟩
    · exact Nat.le_of_succ_le room
    · rintro (⟨_, ⟨⟩⟩ | ⟨⟨⟩⟩)
    · rintro (⟨⟨⟩⟩ | ⟨⟨⟩⟩)
    · rintro _ ⟨⟩
      exact ⟨found, hint, kind.symm⟩

/-- The item that is on its way into the window is put there, and more is known about it. -/
theorem Kept.settle (phase : state.phase = .admitting item) {event : Event Item Result}
    (told : ∀ trace answers started, state.current = answers.length →
      Story classify items trace answers started none →
      Story classify items (trace ++ [event]) (answers ++ [entry]) started none) :
    Kept capacity classify items ((state.log [event]).push capacity (state.current, entry)) := by
  have shape := kept.shape
  have story := kept.story_at phase
  have room := shape.room
  rw [phase] at room
  have count := kept.count_at phase
  have position := State.current_eq count
  have further := told _ _ _ position story
  -- Logging changes neither the window nor the position.
  change Kept _ _ _ ((state.log [event]).push capacity ((state.log [event]).current, entry))
  apply kept_push
  · exact shape.rest
  · exact shape.within
  · exact count
  · exact shape.numbered
  · exact room
  · exact further

theorem Kept.enter (phase : state.phase = .admitting item) :
    Kept capacity classify items
      ((state.log [.admitted state.current]).push capacity (state.current, none)) := by
  refine kept.settle phase fun _ _ _ position story => ?_
  rw [position]
  exact story.enter

theorem Kept.refuse (phase : state.phase = .admitting item) (result : Result) :
    Kept capacity classify items
      ((state.log [.finished state.current result]).push capacity
        (state.current, some result)) := by
  refine kept.settle phase fun _ _ _ position story => ?_
  rw [position]
  exact story.finish_next result (by rintro _ ⟨⟩)

variable {pending : List (Nat × Option Result)}

theorem Kept.window {results : List Result}
    (known : results.map some ++ pending.map Prod.snd = answers)
    (length : answers.length = state.answers.length) (fits : pending.length ≤ state.pending.length)
    (numbered : pending.map Prod.fst = List.range' results.length pending.length)
    (story : Story classify items trace answers (state.taken - state.phase.unstarted)
      (state.phase.solo state.current)) :
    Kept capacity classify items { state with pending, results, trace } where
  shape := by
    have shape := kept.shape
    refine ⟨shape.rest, shape.within, ?_, numbered, ?_, ?_, shape.closed, shape.held⟩
    · change state.taken = (results.map some ++ pending.map Prod.snd).length + _
      rw [known, length]
      exact shape.count
    · exact Nat.le_trans (Nat.add_le_add_right fits _) shape.room
    · intro phase
      rw [shape.empty phase] at fits
      exact List.eq_nil_of_length_eq_zero (Nat.le_zero.mp fits)
  story := by
    rw [← known] at story
    exact story

variable {position : Nat}

theorem Kept.complete {index : Nat} (found : state.pending[index]? = some (position, none))
    (result : Result) :
    Kept capacity classify items
      ({ state with pending := state.pending.set index (position, some result) }.log
        [.finished position result]) := by
  have shape := kept.shape
  obtain ⟨bound, entry⟩ := List.getElem?_eq_some_iff.mp found
  -- The numbers in the window say at which place the answer is known.
  have place : position = state.results.length + index := by
    have numbered := congrArg (·[index]?) shape.numbered
    simpa [bound, entry] using numbered
  have waiting : state.answers[position]? = some none := by
    rw [State.answers, List.getElem?_append_right (by simp [place])]
    simp [place, found]
  have within : position < state.answers.length := (List.getElem?_eq_some_iff.mp waiting).1
  have answers : state.results.map some ++
      (state.pending.set index (position, some result)).map Prod.snd =
      state.answers.set position (some result) := by
    rw [State.answers, List.set_append_right _ _ (by simp [place]), List.length_map, place,
      Nat.add_sub_cancel_left, List.map_set]
  refine kept.window answers ?_ ?_ ?_ ?_
  · exact List.length_set
  · exact Nat.le_of_eq List.length_set
  · rw [List.length_set, ← shape.numbered]
    have own : (state.pending.map Prod.fst)[index]? = some position := by simp [found]
    rw [List.map_set]
    exact set_eq_self own
  · refine kept.story.finish ?_ ?_ ?_ ?_
    · intro known answered
      cases waiting.symm.trans answered
    · exact Nat.le_of_eq List.length_set.symm
    · intro other known
      by_cases same : position = other
      · subst same
        rw [List.getElem?_set_self within, waiting]
        simp [eq_comm]
      · rw [List.getElem?_set_ne same]
        simp [Ne.symm same]
    · exact fun other alone => Or.inl alone

theorem Kept.yield {result : Result} (first : state.pending = (position, some result) :: pending) :
    Kept capacity classify items
      { state with pending, results := state.results ++ [result] } := by
  have answers : (state.results ++ [result]).map some ++ pending.map Prod.snd = state.answers := by
    simp [State.answers, first]
  refine kept.window answers rfl ?_ ?_ kept.story
  · simp [first]
  · have numbered := kept.shape.numbered
    rw [first, List.map_cons, List.length_cons, List.range'_succ] at numbered
    rw [List.length_append]
    exact (List.cons.inj numbered).2

theorem Kept.drained_loop (positive : 0 < capacity) (phase : state.phase = .draining .loop)
    (empty : state.pending = []) : Kept capacity classify items { state with phase := .next } := by
  have shape := kept.shape
  have story := kept.story_at phase
  have count := kept.count_at phase
  apply kept_of_loop
  · exact Or.inl rfl
  · exact shape.rest
  · exact shape.within
  · exact count
  · exact shape.numbered
  · dsimp only
    rw [empty]
    exact positive
  · exact story

omit kept in
theorem Kept.answered_of_empty (empty : state.pending = [])
    (within : position < state.answers.length) :
    ∃ result, state.answers[position]? = some (some result) := by
  have whole : state.answers = state.results.map some := by
    rw [State.answers, empty, List.map_nil, List.append_nil]
  rw [whole, List.length_map] at within
  exact ⟨state.results[position], by simp [whole, within]⟩

theorem Kept.drained_barrier (phase : state.phase = .draining (.barrier item))
    (empty : state.pending = []) :
    Kept capacity classify items
      { state.log [.started state.current item .barrier] with phase := .alone item } := by
  have shape := kept.shape
  have story := kept.story_at phase
  have count := kept.count_at phase
  have position := State.current_eq count
  obtain ⟨found, chosen⟩ := shape.held item phase
  have begun : Story classify items _ _ (state.current + 1) (some state.current) :=
    story.begin found chosen (fun _ earlier less => answered_of_empty empty (position ▸ less))
      (fun _ => rfl)
  have total : state.current + 1 = state.taken := by
    rw [position]
    exact count.symm
  rw [total] at begun
  refine ⟨⟨shape.rest, shape.within, count, shape.numbered, ?_, fun _ => empty, ?_, ?_⟩, begun⟩
  · exact Nat.le_trans (Nat.le_add_right _ _) shape.room
  · rintro (⟨⟨⟩⟩ | ⟨⟨⟩⟩)
  · rintro _ ⟨⟩

theorem Kept.drained_finish (phase : state.phase = .draining .finish) (empty : state.pending = []) :
    Kept capacity classify items { state with phase := .returned } := by
  have shape := kept.shape
  have story := kept.story_at phase
  have count := kept.count_at phase
  refine ⟨⟨shape.rest, shape.within, count, shape.numbered, ?_, fun _ => empty, ?_, ?_⟩, story⟩
  · exact Nat.le_trans (Nat.le_add_right _ _) shape.room
  · exact fun _ => shape.closed (Or.inl phase)
  · rintro _ ⟨⟩

theorem Kept.close (phase : state.phase = .next) (ended : state.rest = []) :
    Kept capacity classify items { state with phase := .draining .finish } := by
  have shape := kept.shape
  have story := kept.story_at phase
  have count := kept.count_at phase
  refine ⟨⟨shape.rest, shape.within, count, shape.numbered, ?_, ?_, fun _ => ended, ?_⟩, story⟩
  · exact Nat.le_trans (Nat.le_add_right _ _) shape.room
  · rintro (⟨_, ⟨⟩⟩ | ⟨⟨⟩⟩)
  · rintro _ ⟨⟩

theorem Kept.done (positive : 0 < capacity) (phase : state.phase = .alone item) (result : Result) :
    Kept capacity classify items
      { state.log [.finished state.current result] with
        results := state.results ++ [result]
        phase := .next } := by
  have shape := kept.shape
  have story := kept.story_at phase
  have count := kept.count_at phase
  have position := State.current_eq count
  have empty := shape.empty (Or.inl ⟨item, phase⟩)
  have answers : (state.results ++ [result]).map some ++ state.pending.map Prod.snd =
      state.answers ++ [some result] := by
    simp [State.answers, empty]
  have finished := story.finish_next result (by rintro _ ⟨⟩; exact position)
  rw [← position, ← answers] at finished
  apply kept_of_loop
  · exact Or.inl rfl
  · exact shape.rest
  · exact shape.within
  · exact count.trans ((congrArg List.length answers).trans List.length_append).symm
  · dsimp only [State.log]
    rw [empty]
    rfl
  · dsimp only [State.log]
    rw [empty]
    exact positive
  · exact finished

theorem Kept.step (positive : 0 < capacity) {next : State Item Result} {action : Action Hint Result}
    (taken : state.step capacity classify action = some next) :
    Kept capacity classify items next := by
  cases moves_of_step taken with
  | take phase more => exact kept.take phase more _
  | close phase ended => exact kept.close phase ended
  | enter phase => exact kept.enter phase
  | refuse phase => exact kept.refuse phase _
  | complete found => exact kept.complete found _
  | yield first => exact kept.yield first
  | loop phase empty => exact kept.drained_loop positive phase empty
  | barrier phase empty => exact kept.drained_barrier phase empty
  | finish phase empty => exact kept.drained_finish phase empty
  | done phase => exact kept.done positive phase _

omit kept in
theorem kept_of_run (positive : 0 < capacity) {actions : List (Action Hint Result)}
    (run : Run.exec (State.step capacity classify) (State.start items) actions =
      some state) : Kept capacity classify items state :=
  Run.exec_preserves_always (Kept capacity classify items)
    (fun _ _ _ kept taken => kept.step positive taken) (kept_start positive items) run

/-- The window never holds more than it has places, the item on its way included. -/
theorem Kept.pending_le :
    state.pending.length ≤ capacity ∧
      ∀ item, state.phase = .admitting item → state.pending.length + 1 ≤ capacity := by
  have room := kept.shape.room
  refine ⟨Nat.le_trans (Nat.le_add_right _ _) room, fun _ phase => ?_⟩
  rw [phase] at room
  exact room

/-- At the end there is one result for each item, its own. -/
theorem Kept.results_of_returned (returned : state.phase = .returned) :
    state.results.length = items.length ∧
      ∀ position result, state.results[position]? = some result ↔
        .finished position result ∈ state.trace := by
  have shape := kept.shape
  have answers : state.answers = state.results.map some := by
    rw [State.answers, shape.empty (Or.inr returned), List.map_nil, List.append_nil]
  constructor
  · have ended : items.drop state.taken = [] :=
      shape.rest.symm.trans (shape.closed (Or.inr returned))
    have all := Nat.le_antisymm shape.within (List.drop_eq_nil_iff.mp ended)
    have count := kept.count_at returned
    rw [answers, List.length_map] at count
    exact count.symm.trans all
  · intro position result
    rw [kept.story.finished, answers, List.getElem?_map]
    simp

end Kept

/-! ## Whose result it is -/

section Told

variable {capacity : Nat} {classify : Item → Hint → Kind Result}
  {fits : Item → Kind Result → Bool → Result → Prop} {state next : State Item Result}

def Fitting (fits : Item → Kind Result → Bool → Result → Prop) (state : State Item Result) :
    Action Hint Result → Prop
  | .refuse result => ∀ item, state.phase = .admitting item → fits item .windowed false result
  | .complete index result => ∀ position item, state.pending[index]? = some (position, none) →
      .started position item .windowed ∈ state.trace → fits item .windowed true result
  | .done result => ∀ item, state.phase = .alone item → fits item .barrier false result
  | _ => True

/-- The item at a position can have the result; `entered` if the item got into the window. -/
def Explained (fits : Item → Kind Result → Bool → Result → Prop)
    (trace : List (Event Item Result)) (position : Nat) (result : Result) : Prop :=
  ∃ item kind entered, .started position item kind ∈ trace ∧ fits item kind entered result ∧
    (entered = true → .admitted position ∈ trace)

/-- Every result is one that its item can have, and only items for the window get there. -/
structure Told (fits : Item → Kind Result → Bool → Result → Prop) (state : State Item Result) :
    Prop where
  finished : ∀ position result, .finished position result ∈ state.trace →
    Explained fits state.trace position result
  admitted : ∀ position, .admitted position ∈ state.trace →
    ∃ item, .started position item .windowed ∈ state.trace
  waiting : ∀ position, (position, none) ∈ state.pending → .admitted position ∈ state.trace
  admitting : ∀ item, state.phase = .admitting item →
    .started state.current item .windowed ∈ state.trace
  alone : ∀ item, state.phase = .alone item → .started state.current item .barrier ∈ state.trace

theorem told_start (items : List Item) : Told fits (State.start items) where
  finished _ _ member := absurd member List.not_mem_nil
  admitted _ member := absurd member List.not_mem_nil
  waiting _ member := absurd member List.not_mem_nil
  admitting := by rintro _ ⟨⟩
  alone := by rintro _ ⟨⟩

variable {events : List (Event Item Result)}

variable (told : Told fits state)
include told

theorem Told.extend (trace : next.trace = state.trace ++ events)
    (finished : ∀ position result, .finished position result ∈ events →
      Explained fits next.trace position result)
    (admitted : ∀ position, .admitted position ∈ events →
      ∃ item, .started position item .windowed ∈ next.trace)
    (waiting : ∀ position, (position, none) ∈ next.pending →
      (position, none) ∈ state.pending ∨ .admitted position ∈ events)
    (admitting : ∀ item, next.phase = .admitting item →
      .started next.current item .windowed ∈ next.trace)
    (alone : ∀ item, next.phase = .alone item → .started next.current item .barrier ∈ next.trace) :
    Told fits next := by
  have older : ∀ {event}, event ∈ state.trace → event ∈ next.trace :=
    fun member => trace ▸ List.mem_append_left _ member
  refine ⟨?_, ?_, ?_, admitting, alone⟩
  · intro position result member
    rcases List.mem_append.mp (trace ▸ member) with old | new
    · obtain ⟨item, kind, entered, started, fit, admitted⟩ := told.finished position result old
      exact ⟨item, kind, entered, older started, fit, older ∘ admitted⟩
    · exact finished position result new
  · intro position member
    rcases List.mem_append.mp (trace ▸ member) with old | new
    · obtain ⟨item, started⟩ := told.admitted position old
      exact ⟨item, older started⟩
    · exact admitted position new
  · intro position member
    rcases waiting position member with old | new
    · exact older (told.waiting position old)
    · exact trace ▸ List.mem_append_right _ new

omit told in
theorem State.push_not_admitting (entry : Nat × Option Result) (item : Item) :
    (state.push capacity entry).phase ≠ .admitting item ∧
      (state.push capacity entry).phase ≠ .alone item := by
  rcases state.phase_push capacity entry with ⟨phase, _⟩ | ⟨phase, _⟩ <;> rw [phase] <;>
    exact ⟨nofun, nofun⟩

/-- The entry that is put into the window has been told about. -/
theorem Told.push {entry : Nat × Option Result}
    (finished : ∀ position result, .finished position result ∈ events →
      Explained fits (state.trace ++ events) position result)
    (admitted : ∀ position, .admitted position ∈ events →
      ∃ item, .started position item .windowed ∈ state.trace ++ events)
    (waiting : entry.2 = none → .admitted entry.1 ∈ events) {rest : List Item} {taken : Nat} :
    Told fits (({ state with rest, taken }.log events).push capacity entry) := by
  refine told.extend rfl finished admitted ?_ ?_ ?_
  · intro position member
    rcases List.mem_append.mp member with old | new
    · exact Or.inl old
    · cases List.mem_singleton.mp new
      exact Or.inr (waiting rfl)
  · exact fun item phase => absurd phase (State.push_not_admitting _ _).1
  · exact fun item phase => absurd phase (State.push_not_admitting _ _).2

theorem Told.take (settles : ∀ item hint result, classify item hint = .settled result →
      fits item (.settled result) false result) (item : Item) (rest : List Item) (hint : Hint) :
    Told fits (state.take capacity classify item rest hint) := by
  unfold State.take
  cases kind : classify item hint with
  | settled result =>
    refine told.push ?_ ?_ (by rintro ⟨⟩)
    · intro position other member
      obtain ⟨rfl, rfl⟩ : position = state.taken ∧ other = result := by
        simpa [State.current] using member
      exact ⟨item, _, _, by simp [State.current], settles item hint _ kind, nofun⟩
    · intro position member
      simp at member
  | windowed =>
    refine told.extend rfl ?_ ?_ (fun _ member => Or.inl member) ?_ nofun
    · intro position other member
      simp at member
    · intro position member
      simp at member
    · rintro _ ⟨⟩
      simp [State.log, State.current]
  | barrier =>
    refine told.extend (List.append_nil _).symm ?_ ?_ (fun _ member => Or.inl member) nofun nofun
    · exact fun _ _ member => absurd member List.not_mem_nil
    · exact fun _ member => absurd member List.not_mem_nil

theorem Told.quiet {pending : List (Nat × Option Result)} {results : List Result}
    {phase : Phase Item} (fewer : ∀ entry ∈ pending, entry ∈ state.pending)
    (still : ∀ item, phase = .admitting item ∨ phase = .alone item → phase = state.phase) :
    Told fits { state with pending, results, phase } where
  finished := told.finished
  admitted := told.admitted
  waiting position member := told.waiting position (fewer _ member)
  admitting item now := told.admitting item (still item (Or.inl now) ▸ now)
  alone item now := told.alone item (still item (Or.inr now) ▸ now)

variable {result : Result}

theorem Told.complete {index position : Nat}
    (fitting : ∀ item, .started position item .windowed ∈ state.trace →
      fits item .windowed true result)
    (found : state.pending[index]? = some (position, none)) :
    Told fits ({ state with pending := state.pending.set index (position, some result) }.log
      [.finished position result]) := by
  have admitted := told.waiting position (List.mem_of_getElem? found)
  obtain ⟨item, started⟩ := told.admitted position admitted
  refine told.extend rfl ?_ ?_ ?_ ?_ ?_
  · intro other known member
    cases List.mem_singleton.mp member
    exact ⟨item, .windowed, true, List.mem_append_left _ started, fitting item started,
      fun _ => List.mem_append_left _ admitted⟩
  · intro other member
    cases List.mem_singleton.mp member
  · intro other member
    rcases List.mem_or_eq_of_mem_set member with old | ⟨⟨⟩⟩
    exact Or.inl old
  · exact fun other phase => List.mem_append_left _ (told.admitting other phase)
  · exact fun other phase => List.mem_append_left _ (told.alone other phase)

theorem Told.done {item : Item} (phase : state.phase = .alone item)
    (fit : fits item .barrier false result) :
    Told fits { state.log [.finished state.current result] with
      results := state.results ++ [result]
      phase := .next } := by
  have started := told.alone item phase
  refine told.extend rfl ?_ ?_ (fun _ member => Or.inl member) nofun nofun
  · intro position other member
    cases List.mem_singleton.mp member
    exact ⟨item, .barrier, false, List.mem_append_left _ started, fit, nofun⟩
  · intro position member
    cases List.mem_singleton.mp member

theorem Told.step (settles : ∀ item hint result, classify item hint = .settled result →
      fits item (.settled result) false result) {action : Action Hint Result}
    (fitting : Fitting fits state action)
    (taken : state.step capacity classify action = some next) :
    Told fits next := by
  cases moves_of_step taken with
  | @take item rest hint phase more => exact told.take settles item rest hint
  | close | loop | finish =>
    refine told.quiet (fun _ member => member) ?_
    rintro item (⟨⟨⟩⟩ | ⟨⟨⟩⟩)
  | @enter item phase =>
    have started := told.admitting item phase
    refine told.push ?_ ?_ fun _ => List.mem_singleton_self _
    · intro position result member
      cases List.mem_singleton.mp member
    · intro position member
      cases List.mem_singleton.mp member
      exact ⟨item, List.mem_append_left _ started⟩
  | @refuse item result phase =>
    have started := told.admitting item phase
    refine told.push ?_ ?_ (by rintro ⟨⟩)
    · intro position known member
      cases List.mem_singleton.mp member
      exact ⟨item, .windowed, false, List.mem_append_left _ started, fitting item phase, nofun⟩
    · intro position member
      cases List.mem_singleton.mp member
  | @complete index position result found =>
    exact told.complete (fun item started => fitting position item found started) found
  | yield first =>
    refine told.quiet (fun entry member => ?_) fun _ _ => rfl
    exact first ▸ List.mem_cons_of_mem _ member
  | @barrier item phase empty =>
    refine told.extend rfl ?_ ?_ (fun _ member => Or.inl member) nofun ?_
    · intro position result member
      cases List.mem_singleton.mp member
    · intro position member
      cases List.mem_singleton.mp member
    · rintro _ ⟨⟩
      exact List.mem_append_right _ (List.mem_singleton_self _)
  | @done item result phase => exact told.done phase (fitting item phase)

omit told in
theorem told_of_run {items : List Item}
    (settles : ∀ item hint result, classify item hint = .settled result →
      fits item (.settled result) false result) {actions : List (Action Hint Result)}
    (along : Run.Along (State.step capacity classify) (Fitting fits) (State.start items) actions)
    (run : Run.exec (State.step capacity classify) (State.start items) actions = some state) :
    Told fits state :=
  Run.exec_preserves (Told fits) (fun _ _ _ told fitting taken => told.step settles fitting taken)
    (told_start items) along run

end Told

/-! ## How long it takes -/

section Budget

variable {capacity : Nat} {classify : Item → Hint → Kind Result}

def Phase.left : Phase Item → Nat
  | .next => 2
  | .admitting _ => 6
  | .draining .loop => 3
  | .draining (.barrier _) => 4
  | .draining .finish => 1
  | .alone _ => 3
  | .returned => 0

/-- Each entry of the window has to be given out, and some have to be answered before. -/
def windowLeft (pending : List (Nat × Option Result)) : Nat :=
  pending.length + pending.countP fun entry => entry.2.isNone

def State.left (state : State Item Result) : Nat :=
  5 * state.rest.length + windowLeft state.pending + state.phase.left

theorem windowLeft_concat (pending : List (Nat × Option Result)) (entry : Nat × Option Result) :
    windowLeft (pending ++ [entry]) = windowLeft pending + windowLeft [entry] := by
  simp only [windowLeft, List.length_append, List.countP_append]
  omega

theorem windowLeft_complete {pending : List (Nat × Option Result)} {index position : Nat}
    (found : pending[index]? = some (position, none)) (result : Result) :
    windowLeft (pending.set index (position, some result)) < windowLeft pending := by
  obtain ⟨bound, entry⟩ := List.getElem?_eq_some_iff.mp found
  have waits : 0 < pending.countP fun entry => entry.2.isNone :=
    List.countP_pos_iff.mpr ⟨_, List.mem_of_getElem? found, rfl⟩
  have answered : (pending.set index (position, some result)).countP (fun entry => entry.2.isNone) =
      (pending.countP fun entry => entry.2.isNone) - 1 := by
    simp [List.countP_set, bound, entry]
  simp only [windowLeft, List.length_set, answered]
  omega

theorem State.left_push_le (state : State Item Result) (entry : Nat × Option Result) :
    (state.push capacity entry).left ≤
      5 * state.rest.length + windowLeft state.pending + windowLeft [entry] + 3 := by
  have phase : (state.push capacity entry).phase.left ≤ 3 := by
    rcases state.phase_push capacity entry with ⟨phase, _⟩ | ⟨phase, _⟩ <;> rw [phase]
    · exact Nat.le_refl _
    · exact Nat.le_succ _
  have window : windowLeft (state.push capacity entry).pending =
      windowLeft state.pending + windowLeft [entry] := windowLeft_concat _ _
  have rest : (state.push capacity entry).rest = state.rest := rfl
  unfold State.left
  rw [window, rest]
  omega

variable {state : State Item Result}

theorem State.left_take (phase : state.phase = .next) {item : Item} {rest : List Item}
    (more : state.rest = item :: rest) (hint : Hint) :
    (state.take capacity classify item rest hint).left < state.left := by
  have before : state.left = 5 * rest.length + 5 + windowLeft state.pending + 2 := by
    rw [State.left, more, phase, List.length_cons, Nat.mul_add]
    rfl
  rw [before]
  unfold State.take
  cases classify item hint with
  | settled result =>
    refine Nat.lt_of_le_of_lt (State.left_push_le _ _) ?_
    simp [State.log, windowLeft]
    omega
  | windowed =>
    simp only [State.left, State.log, Phase.left]
    omega
  | barrier =>
    simp only [State.left, Phase.left]
    omega

theorem State.left_step {next : State Item Result} {action : Action Hint Result}
    (taken : state.step capacity classify action = some next) : next.left < state.left := by
  cases moves_of_step taken with
  | take phase more => exact State.left_take phase more _
  | close phase | loop phase | finish phase => simp [State.left, phase, Phase.left]
  | enter phase | refuse phase =>
    refine Nat.lt_of_le_of_lt (State.left_push_le _ _) ?_
    simp [State.left, State.log, phase, Phase.left, windowLeft]
  | complete found =>
    have less := windowLeft_complete found
    exact Nat.add_lt_add_right (Nat.add_lt_add_left (less _) _) _
  | yield first =>
    simp only [State.left, first, windowLeft, List.length_cons, List.countP_cons]
    omega
  | barrier phase | done phase => simp [State.left, State.log, phase, Phase.left]

/-- A run takes a bounded number of steps for each item. -/
theorem length_le_of_run {items : List Item} {actions : List (Action Hint Result)}
    (run : Run.exec (State.step capacity classify) (State.start items) actions = some state) :
    actions.length ≤ 5 * items.length + 2 := by
  have bound := Run.length_add_potential_le State.left (fun _ _ _ => State.left_step) run
  have whole : (State.start items : State Item Result).left = 5 * items.length + 2 := rfl
  omega

end Budget

end Lib.Window
