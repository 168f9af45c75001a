import KrabkaGateway.Lib.Members
import KrabkaGateway.Lib.Update
import KrabkaGateway.Types

/-!
# The membership table

`MembershipStore` of `dedup/membership.rs`: the latest record of every replica and the
routing table that is rebuilt from them. A hash map is iterated in an order of its own
each time.
-/

namespace KrabkaGateway.Dedup

open Lib

/-- What a replica publishes. -/
structure NodeInfo where
  advertisedAddr : String
  owned : List Nat
  epoch : Nat
  deriving DecidableEq, Repr

/-- The record of a replica, with its offset in the membership topic. -/
structure NodeEntry where
  info : NodeInfo
  offset : Int64
  deriving DecidableEq, Repr

/-- The order in which the values of a map are visited. -/
structure IterationOrder where
  arrange : List NodeEntry → List NodeEntry
  perm : ∀ entries, (arrange entries).Perm entries

/-- The best claim on each partition so far. -/
abbrev Best := Nat → Option (Int64 × String)

def claimPartition (entry : NodeEntry) (best : Best) (partition : Nat) : Best :=
  let slot := (best partition).getD (Int64.minValue, "")
  set best partition
    (some (if entry.offset ≥ slot.1 then (entry.offset, entry.info.advertisedAddr) else slot))

def claimPartitions (best : Best) (entry : NodeEntry) : Best :=
  entry.info.owned.foldl (claimPartition entry) best

structure MembershipStore where
  nodes : List (String × NodeEntry)
  routing : Nat → Option String

namespace MembershipStore

def new : MembershipStore where
  nodes := []
  routing := fun _ => none

def ownerOf (store : MembershipStore) (partition : Nat) : Option String :=
  store.routing partition

def rebuild (store : MembershipStore) (order : IterationOrder) : MembershipStore :=
  let best := (order.arrange (store.nodes.map Prod.snd)).foldl claimPartitions fun _ => none
  { store with routing := fun partition => (best partition).map Prod.snd }

/-- A record without a value removes the replica. -/
def apply (store : MembershipStore) (order : IterationOrder) (nodeId : String)
    (info : Option NodeInfo) (offset : Int64) : MembershipStore :=
  let nodes :=
    match info with
    | some info => insertMember nodeId ⟨info, offset⟩ store.nodes
    | none => removeMember nodeId store.nodes
  { store with nodes }.rebuild order

end MembershipStore

/-! ## The best claim -/

/-- The claim of an entry on a partition for which there is a best one so far. -/
def outbid (entry : NodeEntry) (slot : Option (Int64 × String)) : Int64 × String :=
  let slot := slot.getD (Int64.minValue, "")
  if entry.offset ≥ slot.1 then (entry.offset, entry.info.advertisedAddr) else slot

theorem outbid_again (entry : NodeEntry) (slot : Option (Int64 × String)) :
    outbid entry (some (outbid entry slot)) = outbid entry slot := by
  unfold outbid
  dsimp only [Option.getD_some]
  split
  · exact if_pos (Int64.le_refl _)
  · rfl

theorem claimPartitions_apply (entry : NodeEntry) (best : Best) (partition : Nat) :
    claimPartitions best entry partition =
      if partition ∈ entry.info.owned then some (outbid entry (best partition))
      else best partition := by
  unfold claimPartitions
  generalize entry.info.owned = owned
  induction owned generalizing best with
  | nil => rfl
  | cons first owned ih =>
    rw [List.foldl_cons, ih]
    by_cases own : partition = first
    · subst own
      have claimed : claimPartition entry best partition partition =
          some (outbid entry (best partition)) := set_self _ _ _
      rw [claimed, outbid_again, if_pos List.mem_cons_self]
      split <;> rfl
    · have kept : claimPartition entry best first partition = best partition :=
        set_ne _ _ own
      rw [kept]
      simp only [List.mem_cons, own, false_or]

structure LatestClaimant (entries : List NodeEntry) (partition : Nat) (entry : NodeEntry) :
    Prop where
  listed : entry ∈ entries
  claims : partition ∈ entry.info.owned
  latest : ∀ other ∈ entries, partition ∈ other.info.owned → other.offset ≤ entry.offset

structure BestOf (entries : List NodeEntry) (best : Best) : Prop where
  claimed : ∀ partition offset addr, best partition = some (offset, addr) →
    ∃ entry, LatestClaimant entries partition entry ∧ entry.offset = offset ∧
      entry.info.advertisedAddr = addr
  unclaimed : ∀ partition, best partition = none →
    ∀ entry ∈ entries, partition ∉ entry.info.owned

theorem bestOf_nil : BestOf [] fun _ => none where
  claimed := nofun
  unclaimed := nofun

variable {partition : Nat} {entry : NodeEntry}

theorem LatestClaimant.append {entries : List NodeEntry} {new : NodeEntry}
    (latest : LatestClaimant entries partition entry)
    (below : partition ∈ new.info.owned → new.offset ≤ entry.offset) :
    LatestClaimant (entries ++ [new]) partition entry where
  listed := List.mem_append_left _ latest.listed
  claims := latest.claims
  latest other listed claims := by
    rcases List.mem_append.mp listed with earlier | last
    · exact latest.latest other earlier claims
    · rw [List.mem_singleton.mp last] at claims ⊢
      exact below claims

variable {best : Best}

theorem BestOf.claimPartitions {entries : List NodeEntry} (sound : BestOf entries best)
    (new : NodeEntry) : BestOf (entries ++ [new]) (claimPartitions best new) where
  claimed partition offset addr found := by
    rw [claimPartitions_apply] at found
    split at found
    · rename_i claims
      have own (above : ∀ other ∈ entries, partition ∈ other.info.owned →
          other.offset ≤ new.offset) :
          LatestClaimant (entries ++ [new]) partition new := by
        refine ⟨List.mem_append_right _ List.mem_cons_self, claims, fun other listed claimed => ?_⟩
        rcases List.mem_append.mp listed with earlier | last
        · exact above other earlier claimed
        · rw [List.mem_singleton.mp last]
          exact Int64.le_refl _
      cases before : best partition with
      | none =>
        rw [before, outbid, Option.getD_none, if_pos (Int64.minValue_le _)] at found
        cases found
        refine ⟨new, own fun other listed claimed => ?_, rfl, rfl⟩
        exact absurd claimed (sound.unclaimed partition before other listed)
      | some slot =>
        obtain ⟨entry, latest, stamp, address⟩ := sound.claimed partition slot.1 slot.2 before
        rw [before, outbid, Option.getD_some] at found
        split at found
        · rename_i above
          cases found
          refine ⟨new, own fun other listed claimed => ?_, rfl, rfl⟩
          exact Int64.le_trans (latest.latest other listed claimed) (stamp ▸ above)
        · rename_i below
          cases found
          refine ⟨entry, latest.append fun _ => ?_, stamp, address⟩
          exact stamp ▸ (Int64.le_total _ _).resolve_right below
    · rename_i other
      obtain ⟨entry, latest, stamp, address⟩ := sound.claimed partition offset addr found
      exact ⟨entry, latest.append fun claims => absurd claims other, stamp, address⟩
  unclaimed partition missing entry listed := by
    rw [claimPartitions_apply] at missing
    split at missing
    · cases missing
    · rename_i other
      rcases List.mem_append.mp listed with earlier | last
      · exact sound.unclaimed partition missing entry earlier
      · rwa [List.mem_singleton.mp last]

theorem BestOf.foldl {seen entries : List NodeEntry} (sound : BestOf seen best) :
    BestOf (seen ++ entries) (entries.foldl Dedup.claimPartitions best) := by
  induction entries generalizing seen best with
  | nil => rwa [List.append_nil]
  | cons entry entries ih =>
    have next := ih (sound.claimPartitions entry)
    rwa [List.append_assoc] at next

theorem LatestClaimant.perm {entries others : List NodeEntry} (same : entries.Perm others)
    (latest : LatestClaimant entries partition entry) :
    LatestClaimant others partition entry where
  listed := same.mem_iff.mp latest.listed
  claims := latest.claims
  latest other listed := latest.latest other (same.mem_iff.mpr listed)

namespace MembershipStore

def entries (store : MembershipStore) : List NodeEntry :=
  store.nodes.map Prod.snd

/-- Whatever the order, an owner is the address of a latest claimant. -/
theorem rebuild_owner (store : MembershipStore) (order : IterationOrder) (partition : Nat) :
    (∀ addr, (store.rebuild order).ownerOf partition = some addr →
      ∃ entry, LatestClaimant store.entries partition entry ∧ entry.info.advertisedAddr = addr) ∧
    ((store.rebuild order).ownerOf partition = none →
      ∀ entry ∈ store.entries, partition ∉ entry.info.owned) := by
  have best : BestOf (order.arrange store.entries) _ := bestOf_nil.foldl
  have same := order.perm store.entries
  constructor
  · intro addr found
    obtain ⟨⟨offset, _⟩, visited, rfl⟩ := Option.map_eq_some_iff.mp found
    obtain ⟨entry, latest, _, address⟩ := best.claimed partition offset _ visited
    exact ⟨entry, latest.perm same, address⟩
  · intro missing entry listed
    exact best.unclaimed partition (Option.map_eq_none_iff.mp missing) entry
      (same.mem_iff.mpr listed)

/-- Of entries with offsets of their own there is one latest claimant at most. -/
theorem latestClaimant_unique {entries : List NodeEntry}
    (distinct : (entries.map NodeEntry.offset).Nodup) {first second : NodeEntry}
    (one : LatestClaimant entries partition first) (two : LatestClaimant entries partition second) :
    first = second :=
  List.inj_on_of_nodup_map distinct one.listed two.listed
    (Int64.le_antisymm (two.latest first one.listed one.claims)
      (one.latest second two.listed two.claims))

/-- After a rebuild the owner of a partition is the address of the one entry that claims it with the
highest offset, and there is none exactly if no entry claims it. -/
theorem owner_is_latest_claimant (store : MembershipStore) (order : IterationOrder)
    (distinct : (store.entries.map NodeEntry.offset).Nodup) (partition : Nat) :
    (∀ entry, LatestClaimant store.entries partition entry →
      (store.rebuild order).ownerOf partition = some entry.info.advertisedAddr) ∧
    (∀ addr, (store.rebuild order).ownerOf partition = some addr →
      ∃ entry, LatestClaimant store.entries partition entry ∧ entry.info.advertisedAddr = addr) ∧
    ((store.rebuild order).ownerOf partition = none ↔
      ∀ entry ∈ store.entries, partition ∉ entry.info.owned) := by
  obtain ⟨found, missing⟩ := store.rebuild_owner order partition
  refine ⟨fun entry latest => ?_, found, missing, fun unclaimed => ?_⟩
  · cases owner : (store.rebuild order).ownerOf partition with
    | none => exact absurd latest.claims (missing owner entry latest.listed)
    | some addr =>
      obtain ⟨other, also, rfl⟩ := found addr owner
      rw [latestClaimant_unique distinct latest also]
  · rw [Option.eq_none_iff_forall_ne_some]
    intro addr owner
    obtain ⟨entry, latest, _⟩ := found addr owner
    exact unclaimed entry latest.listed latest.claims

/-- Two replicas that claim partition 1, one of them twice. -/
def overlapping : MembershipStore where
  nodes := [("a",
    { info := { advertisedAddr := "a:1", owned := [0, 1, 1], epoch := 0 }, offset := 5 }),
    ("b", { info := { advertisedAddr := "b:1", owned := [1, 2], epoch := 0 }, offset := 3 })]
  routing := fun _ => none

def backwards : IterationOrder where
  arrange := List.reverse
  perm := List.reverse_perm

theorem later_of_two_owns :
    (overlapping.entries.map NodeEntry.offset).Nodup ∧
      (overlapping.rebuild backwards).ownerOf 1 = some "a:1" := by
  have distinct : (overlapping.entries.map NodeEntry.offset).Nodup := by decide
  refine ⟨distinct, (owner_is_latest_claimant overlapping backwards distinct 1).1
    { info := { advertisedAddr := "a:1", owned := [0, 1, 1], epoch := 0 }, offset := 5 } ?_⟩
  exact ⟨by decide, by decide, by decide⟩

end MembershipStore

end KrabkaGateway.Dedup
