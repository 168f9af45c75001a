import Mathlib.Data.List.Perm.Basic
import Mathlib.Data.List.Nodup
import Mathlib.Tactic.Common

/-!
# A cache that forgets in the order of insertion

A map with a bound on its size and the queue of its keys: what is inserted into a
full map takes the place of the key at the front of the queue.
-/

namespace Lib

structure FifoCache (Key Entry : Type) where
  entries : List (Key × Entry)
  order : List Key

namespace FifoCache

variable {Key Entry : Type}

def empty : FifoCache Key Entry where
  entries := []
  order := []

/-- The key that has to go before a new one comes. -/
def evictee (capacity : Nat) (cache : FifoCache Key Entry) : Option Key :=
  if cache.entries.length = capacity then cache.order.head? else none

/-- The map and the queue have the same keys, each of them once, and not too many. -/
structure WellFormed (capacity : Nat) (cache : FifoCache Key Entry) : Prop where
  keys : (cache.entries.map Prod.fst).Perm cache.order
  nodup : cache.order.Nodup
  bounded : cache.order.length ≤ capacity

variable {capacity : Nat} {cache : FifoCache Key Entry} {key : Key} {entry : Entry}

theorem wellFormed_empty : WellFormed capacity (empty : FifoCache Key Entry) where
  keys := .nil
  nodup := List.nodup_nil
  bounded := Nat.zero_le _

theorem WellFormed.length_entries (formed : WellFormed capacity cache) :
    cache.entries.length = cache.order.length := by
  rw [← formed.keys.length_eq, List.length_map]

theorem evictee_eq_some {oldest : Key} (evicts : cache.evictee capacity = some oldest) :
    ∃ rest, cache.order = oldest :: rest := by
  unfold evictee at evicts
  split at evicts
  · exact List.head?_eq_some_iff.mp evicts
  · cases evicts

variable [DecidableEq Key]

def find (cache : FifoCache Key Entry) (key : Key) : Option Entry :=
  cache.entries.lookup key

def makeRoom (capacity : Nat) (cache : FifoCache Key Entry) : FifoCache Key Entry :=
  match cache.evictee capacity with
  | none => cache
  | some oldest =>
    { entries := cache.entries.filter fun entry => entry.1 ≠ oldest
      order := cache.order.tail }

def insert (capacity : Nat) (cache : FifoCache Key Entry) (key : Key) (entry : Entry) :
    FifoCache Key Entry where
  entries := (cache.makeRoom capacity).entries ++ [(key, entry)]
  order := (cache.makeRoom capacity).order ++ [key]

theorem order_makeRoom :
    (cache.evictee capacity).toList ++ (cache.makeRoom capacity).order = cache.order := by
  unfold makeRoom
  cases evicts : cache.evictee capacity with
  | none => rfl
  | some oldest =>
    obtain ⟨rest, first⟩ := evictee_eq_some evicts
    rw [first]
    rfl

theorem order_insert :
    (cache.evictee capacity).toList ++ (cache.insert capacity key entry).order =
      cache.order ++ [key] := by
  rw [insert, ← List.append_assoc, order_makeRoom]

theorem mem_of_find (found : cache.find key = some entry) : (key, entry) ∈ cache.entries := by
  obtain ⟨before, after, split, _⟩ := List.lookup_eq_some_iff.mp found
  rw [split]
  exact List.mem_append_right _ List.mem_cons_self

variable {member : Key × Entry}

theorem mem_makeRoom (listed : member ∈ (cache.makeRoom capacity).entries) :
    member ∈ cache.entries := by
  unfold makeRoom at listed
  split at listed
  · exact listed
  · exact (List.mem_filter.mp listed).1

theorem mem_insert (listed : member ∈ (cache.insert capacity key entry).entries) :
    member = (key, entry) ∨ member ∈ cache.entries := by
  rcases List.mem_append.mp listed with kept | new
  · exact Or.inr (mem_makeRoom kept)
  · exact Or.inl (List.mem_singleton.mp new)

namespace WellFormed

variable (formed : WellFormed capacity cache)
include formed

theorem find_isSome : (cache.find key).isSome ↔ key ∈ cache.order := by
  rw [← formed.keys.mem_iff, find, List.lookup_isSome_iff, List.mem_map]
  constructor
  · rintro ⟨member, listed, same⟩
    exact ⟨member, listed, (beq_iff_eq.mp same).symm⟩
  · rintro ⟨member, listed, rfl⟩
    exact ⟨member, listed, beq_self_eq_true _⟩

theorem makeRoom : WellFormed capacity (cache.makeRoom capacity) := by
  unfold FifoCache.makeRoom
  cases evicts : cache.evictee capacity with
  | none => exact formed
  | some oldest =>
    obtain ⟨rest, first⟩ := evictee_eq_some evicts
    have nodup := first ▸ formed.nodup
    have bounded := first ▸ formed.bounded
    obtain ⟨absent, later⟩ := List.nodup_cons.mp nodup
    refine ⟨?_, ?_, ?_⟩
    · have kept : (oldest :: rest).filter (fun other => other ≠ oldest) = rest := by
        rw [List.filter_cons_of_neg (by simp), List.filter_eq_self]
        intro other listed
        simpa using ne_of_mem_of_not_mem listed absent
      have keys := formed.keys.filter fun other => other ≠ oldest
      rw [first, kept, List.filter_map] at keys
      rw [first]
      exact keys
    · rw [first]
      exact later
    · rw [first]
      exact Nat.le_of_succ_le bounded

theorem length_makeRoom (room : 0 < capacity) :
    (cache.makeRoom capacity).order.length < capacity := by
  have bounded := formed.bounded
  unfold FifoCache.makeRoom
  cases evicts : cache.evictee capacity with
  | none =>
    unfold evictee at evicts
    split at evicts
    · rename_i full
      rw [List.head?_eq_none_iff] at evicts
      rw [evicts]
      exact room
    · rename_i space
      rw [formed.length_entries] at space
      exact Nat.lt_of_le_of_ne bounded space
  | some oldest =>
    obtain ⟨rest, first⟩ := evictee_eq_some evicts
    rw [first] at bounded ⊢
    exact bounded

theorem insert (room : 0 < capacity) (fresh : key ∉ cache.order) (entry : Entry) :
    WellFormed capacity (cache.insert capacity key entry) := by
  have roomy := formed.makeRoom
  have absent : key ∉ (cache.makeRoom capacity).order := by
    intro listed
    have queued : key ∈ (cache.evictee capacity).toList ++ (cache.makeRoom capacity).order :=
      List.mem_append_right _ listed
    rw [order_makeRoom] at queued
    exact fresh queued
  refine ⟨?_, ?_, ?_⟩
  · rw [FifoCache.insert, List.map_append]
    exact roomy.keys.append_right _
  · exact List.nodup_append.mpr ⟨roomy.nodup, List.nodup_singleton _, by
      intro other listed last own same
      exact absent (List.mem_singleton.mp own ▸ same ▸ listed)⟩
  · rw [FifoCache.insert, List.length_append]
    exact formed.length_makeRoom room

end WellFormed

end FifoCache

end Lib
