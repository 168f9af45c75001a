import KrabkaGateway.Lib.Members

/-!
# Groups

Items put into one list after another, by their keys.
-/

namespace Lib

variable {Key Item : Type} [DecidableEq Key]

def pushItem (key : Item → Key) (groups : List (Key × List Item)) (item : Item) :
    List (Key × List Item) :=
  insertMember (key item) ((groups.lookup (key item)).getD [] ++ [item]) groups

def groupItems (key : Item → Key) (items : List Item) : List (Key × List Item) :=
  items.foldl (pushItem key) []

variable {key : Item → Key}

variable {groups : List (Key × List Item)}

theorem Distinct.pushItem (distinct : Distinct groups) (item : Item) :
    Distinct (pushItem key groups item) :=
  distinct.insertMember _ _

theorem pushItem_perm (item : Item) :
    ((pushItem key groups item).flatMap Prod.snd).Perm (groups.flatMap Prod.snd ++ [item]) := by
  unfold pushItem
  induction groups with
  | nil => simp [insertMember]
  | cons group groups ih =>
    rw [insertMember, lookup_member]
    by_cases own : group.1 = key item
    · rw [if_pos own, if_pos own.symm]
      simp only [Option.getD_some, List.flatMap_cons, List.append_assoc]
      exact List.Perm.append_left _ List.perm_append_comm
    · rw [if_neg own, if_neg (Ne.symm own), List.flatMap_cons, List.flatMap_cons,
        List.append_assoc]
      exact ih.append_left _

theorem groupItems_perm (items : List Item) :
    ((groupItems key items).flatMap Prod.snd).Perm items := by
  have pushed : ∀ groups : List (Key × List Item),
      ((items.foldl (pushItem key) groups).flatMap Prod.snd).Perm
        (groups.flatMap Prod.snd ++ items) := by
    induction items with
    | nil => simp
    | cons item items ih =>
      intro groups
      refine (ih _).trans ?_
      rw [List.append_cons]
      exact (pushItem_perm item).append_right items
  exact pushed []

theorem distinct_groupItems (items : List Item) : Distinct (groupItems key items) := by
  unfold groupItems
  refine List.foldlRecOn items _ distinct_nil fun groups distinct item _ => ?_
  exact distinct.pushItem item

variable {items : List Item} {group : Key × List Item}

theorem key_of_mem_groupItems (member : group ∈ groupItems key items) :
    ∀ item ∈ group.2, key item = group.1 := by
  have filed : ∀ group ∈ groupItems key items, ∀ item ∈ group.2, key item = group.1 := by
    unfold groupItems
    refine List.foldlRecOn (motive := fun groups : List (Key × List Item) =>
      ∀ group ∈ groups, ∀ item ∈ group.2, key item = group.1) items _
      (fun _ none => absurd none List.not_mem_nil) fun groups filed item _ group member => ?_
    rcases mem_insertMember member with rfl | old
    · intro other inside
      rcases List.mem_append.mp inside with before | new
      · cases found : groups.lookup (key item) with
        | none => simp [found] at before
        | some others =>
          rw [found] at before
          exact filed (key item, others) (mem_of_lookup found) other before
      · rw [List.mem_singleton.mp new]
    · exact filed group old
  exact filed group member

theorem mem_group_of_key_eq (member : group ∈ groupItems key items) {item other : Item}
    (inside : item ∈ group.2) (listed : other ∈ items) (same : key other = key item) :
    other ∈ group.2 := by
  have all : ((groupItems key items).flatMap Prod.snd).Perm items := groupItems_perm items
  obtain ⟨own, found, here⟩ := List.mem_flatMap.mp (all.mem_iff.mpr listed)
  have keys : own.1 = group.1 := by
    rw [← key_of_mem_groupItems found other here, same, key_of_mem_groupItems member item inside]
  have distinct : Distinct (groupItems key items) := distinct_groupItems items
  have first := distinct.lookup_eq_some.mpr found
  have second := distinct.lookup_eq_some.mpr member
  rw [keys, second] at first
  rw [Option.some.inj first]
  exact here

end Lib
