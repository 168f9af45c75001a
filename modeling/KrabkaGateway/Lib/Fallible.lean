import Mathlib.Data.List.Forall2

/-!
# Results that may fail

Rules for computations in `Except` and `Option`: what succeeds is taken apart, and what fails
fails as a whole.
-/

namespace Lib

universe u v w

variable {Error : Type u} {Item : Type w} {First Second : Type v}

variable {first : Except Error First} {next : First → Except Error Second}

/-- Both parts of a sequence that succeeds succeed. -/
theorem ok_of_bind {result : Second} (finished : first >>= next = .ok result) :
    ∃ value, first = .ok value ∧ next value = .ok result := by
  cases first with
  | error error => cases finished
  | ok value => exact ⟨value, rfl, finished⟩

theorem ok_of_map {map : First → Second} {result : Second} (finished : first.map map = .ok result) :
    ∃ value, first = .ok value ∧ map value = result := by
  cases first with
  | error error => cases finished
  | ok value => exact ⟨value, rfl, Except.ok.inj finished⟩

variable {error : Error}

theorem isOk_mapM (map : Item → Except Error Second) (items : List Item) :
    (items.mapM map).isOk = items.all fun item => (map item).isOk := by
  induction items with
  | nil => rfl
  | cons item items ih =>
    rw [List.all_cons, ← ih, List.mapM_cons]
    cases map item with
    | error error => rfl
    | ok mapped =>
      cases items.mapM map <;>
        simp [Except.isOk, Except.toBool, bind, Except.bind, pure, Except.pure]

theorem mapM_error {map : Item → Except Error Second} {item : Item}
    (failed : map item = .error error)
    (items : List Item) : (item :: items).mapM map = .error error := by
  rw [List.mapM_cons, failed]
  rfl

variable {items : List Item} {results : List Second}

theorem mapM_eq_none {map : Item → Option Second} {item : Item} (listed : item ∈ items)
    (failed : map item = none) : items.mapM map = none := by
  induction items with
  | nil => exact absurd listed List.not_mem_nil
  | cons first rest ih =>
    rw [List.mapM_cons]
    obtain rfl | later := List.mem_cons.mp listed
    · rw [failed]
      rfl
    · cases map first with
      | none => rfl
      | some result =>
        rw [ih later]
        rfl

theorem mem_of_mapM_ok {map : Item → Except Error Second} (mapped : items.mapM map = .ok results) :
    ∀ result ∈ results, ∃ item ∈ items, map item = .ok result := by
  induction items generalizing results with
  | nil =>
    cases mapped
    simp
  | cons item items ih =>
    rw [List.mapM_cons] at mapped
    obtain ⟨head, first, mapped⟩ := ok_of_bind mapped
    obtain ⟨tail, later, mapped⟩ := ok_of_bind mapped
    cases mapped
    intro result member
    rcases List.mem_cons.mp member with rfl | among
    · exact ⟨item, List.mem_cons_self, first⟩
    · obtain ⟨source, listed, own⟩ := ih later result among
      exact ⟨source, List.mem_cons_of_mem _ listed, own⟩

/-- The results of a list that is mapped belong to its items one by one. -/
theorem forall₂_of_mapM_ok {map : Item → Except Error Second}
    (mapped : items.mapM map = .ok results) :
    List.Forall₂ (fun item result => map item = .ok result) items results := by
  induction items generalizing results with
  | nil =>
    cases mapped
    exact .nil
  | cons item items ih =>
    rw [List.mapM_cons] at mapped
    obtain ⟨head, first, mapped⟩ := ok_of_bind mapped
    obtain ⟨tail, later, mapped⟩ := ok_of_bind mapped
    cases mapped
    exact .cons first (ih later)

theorem mapM_of_ok {map : Item → Except Error Second} {each : Item → Second}
    (own : ∀ item ∈ items, map item = .ok (each item)) : items.mapM map = .ok (items.map each) := by
  induction items with
  | nil => rfl
  | cons item items ih =>
    rw [List.mapM_cons, own item List.mem_cons_self,
      ih fun item member => own item (List.mem_cons_of_mem _ member)]
    rfl

def collect (map : Item → Except Error (Option Second)) (items : List Item) :
    Except Error (List Second) :=
  (items.mapM map).map fun results => results.filterMap id

theorem collect_cons (map : Item → Except Error (Option Second)) (item : Item)
    (items : List Item) :
    collect map (item :: items) = do
      let result ← map item
      let results ← collect map items
      return result.toList ++ results := by
  rw [collect, collect, List.mapM_cons]
  cases map item with
  | error error => rfl
  | ok result =>
    cases items.mapM map with
    | error error => rfl
    | ok results => cases result <;> rfl

variable {map : Item → Except Error (Option Second)}

theorem collect_cons_none {item : Item} (absent : map item = .ok none) (items : List Item) :
    collect map (item :: items) = collect map items := by
  rw [collect_cons, absent]
  cases collect map items <;> rfl

theorem collect_of_ok {each : Item → Option Second}
    (own : ∀ item ∈ items, map item = .ok (each item)) :
    collect map items = .ok (items.filterMap each) := by
  rw [collect, mapM_of_ok own]
  simp [Except.map, List.filterMap_map]

theorem ok_of_collect (collected : collect map items = .ok results) :
    ∀ item ∈ items, ∃ result, map item = .ok result := by
  have mapped : (items.mapM map).isOk = true := by
    unfold collect at collected
    cases found : items.mapM map with
    | error error =>
      rw [found] at collected
      cases collected
    | ok _ => rfl
  rw [isOk_mapM, List.all_eq_true] at mapped
  intro item member
  have own := mapped item member
  cases found : map item with
  | error error =>
    rw [found] at own
    cases own
  | ok result => exact ⟨result, rfl⟩

theorem foldlM_eq_ite {State : Type v} {next : State → Item → Except Error State}
    {update : State → Item → State} {fine : Item → Bool}
    (steps : ∀ state item,
      next state item = if fine item then .ok (update state item) else .error error)
    (items : List Item) (state : State) :
    items.foldlM next state =
      if items.all fine then .ok (items.foldl update state) else .error error := by
  induction items generalizing state with
  | nil => rfl
  | cons item items ih =>
    rw [List.foldlM_cons, steps, List.all_cons, List.foldl_cons]
    cases fine item with
    | false => rfl
    | true => exact ih (update state item)

end Lib
