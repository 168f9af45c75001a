import Mathlib.Data.List.Nodup
import KrabkaGateway.Consume.Session

/-!
# The native consumer in its group

What the session sees of the native consumer: the assignment, a position in
each assigned partition and the group's committed offsets. A partition that is
assigned resumes at its committed offset. `epoch`, `resumed` and `polled` are
history.
-/

namespace KrabkaGateway.Consume

open Lib

/-- A record that Kafka can return. -/
def Readable (visible : TopicPartition → Int → Bool) (record : Coordinate) : Prop :=
  record.Valid ∧ visible record.key record.offset = true

structure Group where
  assigned : TopicPartition → Bool
  position : TopicPartition → Int
  committed : TopicPartition → Int
  /-- How often the partition was assigned to this member. -/
  epoch : TopicPartition → Nat
  /-- Where this member resumed when the partition was last assigned. -/
  resumed : TopicPartition → Int
  /-- The records that poll returned, each with the epoch of its partition. -/
  polled : List (Coordinate × Nat)

namespace Group

/-- A member that has just joined. -/
def join (committed : TopicPartition → Int) : Group where
  assigned := fun _ => false
  position := committed
  committed := committed
  epoch := fun _ => 0
  resumed := committed
  polled := []

def assign (group : Group) (key : TopicPartition) : Group :=
  { group with
    assigned := set group.assigned key true
    position := set group.position key (group.committed key)
    epoch := set group.epoch key (group.epoch key + 1)
    resumed := set group.resumed key (group.committed key) }

def revoke (group : Group) (key : TopicPartition) : Group :=
  { group with assigned := set group.assigned key false }

/-- Another member commits. -/
def otherCommit (group : Group) (key : TopicPartition) (offset : Int) : Group :=
  { group with committed := set group.committed key offset }

def commit (group : Group) (offsets : TopicPartition → Option Int) : Group :=
  { group with committed := fun key => (offsets key).getD (group.committed key) }

/-- The positions of the assigned partitions, which `commit_sync` commits. -/
def positions (group : Group) (key : TopicPartition) : Option Int :=
  if group.assigned key then some (group.position key) else none

/-- The visible records of a partition from `position` up to `next`. Offsets of
control records and of removed records are not visible. -/
def fetch (visible : TopicPartition → Int → Bool) (key : TopicPartition) (position next : Int) :
    List Coordinate :=
  (((List.range (next - position).toNat).map fun (count : Nat) => position + count).filter
    fun offset => 0 ≤ offset && visible key offset).map fun offset => ⟨key, offset⟩

variable (visible : TopicPartition → Int → Bool)

/-- The records of one poll. -/
def batch (group : Group) (keys : List TopicPartition) (next : TopicPartition → Int) :
    List Coordinate :=
  keys.flatMap fun key => fetch visible key (group.position key) (next key)

def poll (group : Group) (keys : List TopicPartition) (next : TopicPartition → Int) : Group :=
  { group with
    position := fun key => if key ∈ keys then next key else group.position key
    polled := (group.batch visible keys next).map
      (fun record => (record, group.epoch record.key)) ++
      group.polled }

variable {visible}

variable {key : TopicPartition} {record : Coordinate}

theorem mem_fetch {position next : Int} :
    record ∈ fetch visible key position next ↔
      record.key = key ∧ position ≤ record.offset ∧ record.offset < next ∧ 0 ≤ record.offset ∧
        visible key record.offset = true := by
  simp only [fetch, List.mem_map, List.mem_filter, List.mem_range, Bool.and_eq_true,
    decide_eq_true_eq]
  constructor
  · rintro ⟨offset, ⟨⟨count, bound, rfl⟩, natural, isVisible⟩, rfl⟩
    exact ⟨rfl, by dsimp only; omega, by dsimp only; omega, natural, isVisible⟩
  · rintro ⟨rfl, lower, upper, natural, isVisible⟩
    refine ⟨record.offset, ⟨⟨(record.offset - position).toNat, ?_, ?_⟩, natural, isVisible⟩, rfl⟩
    · omega
    · omega

variable {keys : List TopicPartition} {next : TopicPartition → Int}

theorem mem_batch {group : Group} :
    record ∈ group.batch visible keys next ↔
      record.key ∈ keys ∧ group.position record.key ≤ record.offset ∧
        record.offset < next record.key ∧ 0 ≤ record.offset ∧
        visible record.key record.offset = true := by
  simp only [batch, List.mem_flatMap, mem_fetch]
  constructor
  · rintro ⟨key, listed, rfl, rest⟩
    exact ⟨listed, rest⟩
  · rintro ⟨listed, rest⟩
    exact ⟨record.key, listed, rfl, rest⟩

theorem fetch_ascending (key : TopicPartition) (position next : Int) :
    AckTracker.Ascending (fetch visible key position next) := by
  unfold AckTracker.Ascending fetch
  rw [List.pairwise_map]
  apply List.Pairwise.filter
  rw [List.pairwise_map]
  refine List.pairwise_lt_range.imp ?_
  intro earlier later below _
  dsimp only
  omega

theorem batch_ascending {group : Group} (distinct : keys.Nodup) :
    AckTracker.Ascending (group.batch visible keys next) := by
  unfold AckTracker.Ascending batch
  rw [List.pairwise_flatMap]
  refine ⟨fun key _ => fetch_ascending key _ _, distinct.imp ?_⟩
  intro key other different record inKey later inOther same
  rw [(mem_fetch.mp inKey).1, (mem_fetch.mp inOther).1] at same
  exact absurd same different

/-- What relates the positions, the epochs and the polled records: the records
polled since the last assignment are those between the resume offset and the
position. -/
structure Placed (visible : TopicPartition → Int → Bool) (group : Group) : Prop where
  partition : ∀ key, group.assigned key = true → 0 ≤ key.2
  epoch : ∀ entry ∈ group.polled, entry.2 ≤ group.epoch entry.1.key
  position : ∀ key, group.assigned key = true → group.resumed key ≤ group.position key
  current : ∀ record, group.assigned record.key = true →
    (record, group.epoch record.key) ∈ group.polled →
      group.resumed record.key ≤ record.offset ∧ record.offset < group.position record.key ∧
        Readable visible record
  complete : ∀ record, group.assigned record.key = true → Readable visible record →
    group.resumed record.key ≤ record.offset → record.offset < group.position record.key →
      (record, group.epoch record.key) ∈ group.polled

theorem placed_join (committed : TopicPartition → Int) : Placed visible (join committed) where
  partition := by simp [join]
  epoch := by simp [join]
  position := by simp [join]
  current := by simp [join]
  complete := by simp [join]

variable {group : Group}

theorem Placed.assign (placed : group.Placed visible) (valid : 0 ≤ key.2) :
    (group.assign key).Placed visible where
  partition := by
    intro other held
    by_cases same : other = key
    · exact same ▸ valid
    · exact placed.partition other (by simpa [Group.assign, same] using held)
  epoch := by
    intro entry membership
    have bound := placed.epoch entry membership
    by_cases same : entry.1.key = key
    · subst same
      simpa [Group.assign] using Nat.le_succ_of_le bound
    · simpa [Group.assign, same] using bound
  position := by
    intro other held
    by_cases same : other = key
    · subst same
      simp [Group.assign]
    · simpa [Group.assign, same] using
        placed.position other (by simpa [Group.assign, same] using held)
  current := by
    intro record held membership
    by_cases same : record.key = key
    · -- No record carries the new epoch yet.
      have bound := placed.epoch _ membership
      simp only [Group.assign, same, set_self] at bound
      omega
    · simp only [Group.assign, set_ne _ _ same] at held membership ⊢
      exact placed.current record held membership
  complete := by
    intro record held readable resumed below
    by_cases same : record.key = key
    · simp only [Group.assign, same, set_self] at resumed below
      omega
    · simp only [Group.assign, set_ne _ _ same] at held resumed below ⊢
      exact placed.complete record held readable resumed below

theorem held_of_revoke {key other : TopicPartition}
    (held : (group.revoke key).assigned other = true) : group.assigned other = true := by
  by_cases same : other = key
  · simp [Group.revoke, same] at held
  · simpa [Group.revoke, same] using held

theorem Placed.revoke (placed : group.Placed visible) (key : TopicPartition) :
    (group.revoke key).Placed visible :=
  ⟨fun other held => placed.partition other (held_of_revoke held), placed.epoch,
    fun other held => placed.position other (held_of_revoke held),
    fun record held => placed.current record (held_of_revoke held),
    fun record held => placed.complete record (held_of_revoke held)⟩

theorem Placed.withCommitted (placed : group.Placed visible) (committed : TopicPartition → Int) :
    Placed visible { group with committed := committed } :=
  ⟨placed.partition, placed.epoch, placed.position, placed.current, placed.complete⟩

theorem Placed.poll (placed : group.Placed visible)
    (held : ∀ key ∈ keys, group.assigned key = true ∧ group.position key ≤ next key) :
    (group.poll visible keys next).Placed visible where
  partition := placed.partition
  epoch := by
    intro entry membership
    rcases List.mem_append.mp membership with new | old
    · obtain ⟨record, _, rfl⟩ := List.mem_map.mp new
      exact Nat.le_refl _
    · exact placed.epoch entry old
  position := by
    intro key isAssigned
    have bound := placed.position key isAssigned
    by_cases listed : key ∈ keys
    · simpa [Group.poll, listed] using bound.trans (held key listed).2
    · simpa [Group.poll, listed] using bound
  current := by
    intro record isAssigned membership
    rcases List.mem_append.mp membership with new | old
    · obtain ⟨other, inBatch, equality⟩ := List.mem_map.mp new
      obtain rfl : other = record := congrArg Prod.fst equality
      obtain ⟨listed, lower, upper, natural, isVisible⟩ := mem_batch.mp inBatch
      have resumedBelow := placed.position other.key isAssigned
      exact ⟨resumedBelow.trans lower, by simpa [Group.poll, listed] using upper,
        ⟨placed.partition _ isAssigned, natural⟩, isVisible⟩
    · obtain ⟨lower, upper, readable⟩ := placed.current record isAssigned old
      refine ⟨lower, ?_, readable⟩
      by_cases listed : record.key ∈ keys
      · simpa [Group.poll, listed] using upper.trans_le (held record.key listed).2
      · simpa [Group.poll, listed] using upper
  complete := by
    intro record isAssigned readable resumed below
    by_cases old : record.offset < group.position record.key
    · exact List.mem_append_right _ (placed.complete record isAssigned readable resumed old)
    · have listed : record.key ∈ keys := by
        by_contra other
        exact old (by simpa [Group.poll, other] using below)
      have upper : record.offset < next record.key := by simpa [Group.poll, listed] using below
      refine List.mem_append_left _ (List.mem_map.mpr ⟨record, ?_, rfl⟩)
      exact mem_batch.mpr ⟨listed, not_lt.mp old, upper, readable.1.2, readable.2⟩

end Group

end KrabkaGateway.Consume
