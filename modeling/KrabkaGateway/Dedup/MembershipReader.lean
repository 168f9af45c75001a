import KrabkaGateway.Dedup.Membership
import KrabkaGateway.Lib.Run
import Mathlib.Algebra.Ring.Nat

/-!
# The reader of the membership topic

`run_membership_with_policy` of `dedup/membership.rs` with its rebalance listener. The
reader polls batches and applies their records one after another; each assignment,
which happens inside a poll, takes it back to the beginning of the topic. Replicas
append to the topic, and compaction removes records from it. `applied` is history.
-/

namespace KrabkaGateway.Dedup

open Lib Lib.Run

structure MembershipRecord where
  key : Option Bytes
  value : Option Bytes
  deriving DecidableEq, Repr

/-- The text of a key, with replacement characters for what is not UTF-8, and the JSON of a
value. -/
structure MembershipLibrary where
  nodeId : Bytes → String
  readInfo : Bytes → Option NodeInfo

/-- A record that went into the table. -/
structure AppliedRecord where
  nodeId : String
  info : Option NodeInfo
  index : Nat
  deriving DecidableEq, Repr

/-- The offset of a record, by its place in the topic. -/
def offsetOf (index : Nat) : Int64 :=
  Int64.ofNat index

/-- What the table has of a record: nothing, if it has no value. -/
def AppliedRecord.entry (record : AppliedRecord) : Option NodeEntry :=
  record.info.map fun info => ⟨info, offsetOf record.index⟩

/-- `removed` are the records that compaction took out of the topic. -/
structure MembershipState where
  topic : List MembershipRecord
  removed : List Nat
  position : Nat
  batch : List (Nat × MembershipRecord)
  store : MembershipStore
  applied : List AppliedRecord

inductive MembershipAction where
  | publish (record : MembershipRecord)
  | compact (index : Nat)
  | assign (partitions : List (String × Int32))
  | poll (count : Nat)
  | apply (order : IterationOrder)

/-- The record as the table takes it. One without a key or with a value that cannot be read is
skipped. -/
def MembershipLibrary.decode (library : MembershipLibrary) (index : Nat)
    (record : MembershipRecord) : Option AppliedRecord :=
  match record.key with
  | none => none
  | some key =>
    match record.value with
    | none => some { nodeId := library.nodeId key, info := none, index }
    | some value =>
      match library.readInfo value with
      | none => none
      | some info => some { nodeId := library.nodeId key, info := some info, index }

namespace MembershipState

def initial : MembershipState where
  topic := []
  removed := []
  position := 0
  batch := []
  store := .new
  applied := []

/-- The records that a poll returns. -/
def fetch (state : MembershipState) (count : Nat) : List (Nat × MembershipRecord) :=
  (List.range' state.position count).filterMap fun index =>
    if state.removed.contains index then none
    else state.topic[index]?.map fun record => (index, record)

def put (state : MembershipState) (order : IterationOrder) (record : AppliedRecord) :
    MembershipState :=
  { state with
    store := state.store.apply order record.nodeId record.info (offsetOf record.index)
    applied := state.applied ++ [record] }

variable (library : MembershipLibrary)

def step (state : MembershipState) : MembershipAction → Option MembershipState
  | .publish record =>
    -- Offsets are 64-bit integers.
    if state.topic.length + 1 < 2 ^ 63 then some { state with topic := state.topic ++ [record] }
    else none
  | .compact index => some { state with removed := index :: state.removed }
  | .assign partitions =>
    if state.batch = [] then
      some (if partitions = [] then state else { state with position := 0 })
    else none
  | .poll count =>
    if state.batch = [] ∧ state.position + count ≤ state.topic.length then
      some { state with position := state.position + count, batch := state.fetch count }
    else none
  | .apply order =>
    match state.batch with
    | [] => none
    | (index, record) :: rest =>
      match library.decode index record with
      | none => some { state with batch := rest }
      | some record => some ({ state with batch := rest }.put order record)

end MembershipState

/-! ## The newest record of a node -/

/-- A record that was read, with none of its node behind it. -/
structure Newest (applied : List AppliedRecord) (record : AppliedRecord) : Prop where
  listed : record ∈ applied
  newest : ∀ other ∈ applied, other.nodeId = record.nodeId → other.index ≤ record.index

instance (applied : List AppliedRecord) (record : AppliedRecord) :
    Decidable (Newest applied record) :=
  decidable_of_iff (record ∈ applied ∧
      ∀ other ∈ applied, other.nodeId = record.nodeId → other.index ≤ record.index)
    ⟨fun ⟨listed, newest⟩ => ⟨listed, newest⟩, fun latest => ⟨latest.listed, latest.newest⟩⟩

/-- The record does not come before the newest one read of its node, unless both remove the node. -/
def Fresh (applied : List AppliedRecord) (record : AppliedRecord) : Prop :=
  ∀ newest ∈ applied, Newest applied newest → newest.nodeId = record.nodeId →
    newest.index ≤ record.index ∨ record.info = none ∧ newest.info = none

instance (applied : List AppliedRecord) (record : AppliedRecord) :
    Decidable (Fresh applied record) :=
  inferInstanceAs (Decidable (∀ newest ∈ applied, _))

namespace MembershipState

/-- The table has for every node the newest record that was read, and the routing table is made of
these. -/
structure UsesNewest (state : MembershipState) : Prop where
  read : ∀ record, Newest state.applied record →
    state.store.nodes.lookup record.nodeId = record.entry
  unread : ∀ node, (∀ record ∈ state.applied, record.nodeId ≠ node) →
    state.store.nodes.lookup node = none
  routed : ∃ order, state.store.routing = (state.store.rebuild order).routing

variable (library : MembershipLibrary)

/-- What the topic still has at a place, as the table takes it. -/
def retained (state : MembershipState) (index : Nat) : Option AppliedRecord :=
  if index ∈ state.removed then none else state.topic[index]?.bind (library.decode index)

/-- A seek to the beginning finds of each node no record but the newest one that was read:
compaction has taken the others out of what lies before the position. -/
def SeeksCompacted (state : MembershipState) : MembershipAction → Prop
  | .assign partitions => partitions ≠ [] → ∀ index < state.position,
      ∀ record ∈ (state.retained library index).toList, Fresh state.applied record
  | _ => True

instance (state : MembershipState) (action : MembershipAction) :
    Decidable (state.SeeksCompacted library action) := by
  cases action <;> unfold SeeksCompacted <;> infer_instance

/-- What is kept along the way. The batch and what was read come from the topic, and what the reader
has still to read is in order and comes behind what it has read. -/
structure Reads (state : MembershipState) : Prop where
  uses : state.UsesNewest
  batch : ∀ item ∈ state.batch, state.topic[item.1]? = some item.2
  applied : ∀ record ∈ state.applied, ∃ source, state.topic[record.index]? = some source ∧
    library.decode record.index source = some record
  sorted : state.batch.Pairwise fun first second => first.1 < second.1
  polled : ∀ item ∈ state.batch, item.1 < state.position ∧
    ∀ record, library.decode item.1 item.2 = some record → Fresh state.applied record
  ahead : ∀ index record, state.position ≤ index →
    state.retained library index = some record → Fresh state.applied record

end MembershipState

theorem MembershipStore.lookup_apply (store : MembershipStore) (order : IterationOrder)
    (nodeId : String) (info : Option NodeInfo) (offset : Int64) (node : String) :
    (store.apply order nodeId info offset).nodes.lookup node =
      if node = nodeId then info.map (fun info => ⟨info, offset⟩) else store.nodes.lookup node := by
  cases info with
  | none => exact lookup_removeMember nodeId store.nodes node
  | some info => exact lookup_insertMember nodeId ⟨info, offset⟩ store.nodes node

theorem index_of_decode {library : MembershipLibrary} {index : Nat} {source : MembershipRecord}
    {record : AppliedRecord} (decoded : library.decode index source = some record) :
    record.index = index := by
  unfold MembershipLibrary.decode at decoded
  split at decoded
  · cases decoded
  · split at decoded
    · cases decoded
      rfl
    · split at decoded
      · cases decoded
      · cases decoded
        rfl

/-- A record behind the one that is read now stays fresh. -/
theorem Fresh.append {applied : List AppliedRecord} {record later : AppliedRecord}
    (fresh : Fresh applied later) (behind : record.index < later.index) :
    Fresh (applied ++ [record]) later := by
  intro newest listed latest named
  rcases List.mem_append.mp listed with earlier | last
  · exact fresh newest earlier
      ⟨earlier, fun other among => latest.newest other (List.mem_append_left _ among)⟩ named
  · rw [List.mem_singleton.mp last]
    exact .inl (Nat.le_of_lt behind)

namespace MembershipState

variable {library : MembershipLibrary} {state next : MembershipState}

variable {record : AppliedRecord} {source : MembershipRecord}

/-- Records of one place in the topic are one record. -/
theorem Reads.unique (reads : state.Reads library) {other : AppliedRecord}
    (place : state.topic[record.index]? = some source)
    (decoded : library.decode record.index source = some record) (listed : other ∈ state.applied)
    (same : other.index = record.index) : other = record := by
  obtain ⟨second, found, read⟩ := reads.applied other listed
  rw [same] at found read
  rw [place] at found
  cases found
  rw [decoded] at read
  exact (Option.some.inj read).symm

theorem reads_initial : initial.Reads library where
  uses := ⟨fun _ newest => absurd newest.listed List.not_mem_nil, fun _ _ => rfl,
    ⟨id, fun _ => .refl _⟩, rfl⟩
  batch := nofun
  applied := nofun
  sorted := .nil
  polled := nofun
  ahead _ _ _ _ := nofun

theorem lookup_put (order : IterationOrder) (record : AppliedRecord) (node : String) :
    (state.put order record).store.nodes.lookup node =
      if node = record.nodeId then record.entry else state.store.nodes.lookup node :=
  state.store.lookup_apply order record.nodeId record.info (offsetOf record.index) node

theorem UsesNewest.put (uses : state.UsesNewest) (order : IterationOrder)
    (unique : ∀ other ∈ state.applied, other.index = record.index → other = record)
    (fresh : Fresh state.applied record) : (state.put order record).UsesNewest := by
  refine ⟨fun newest latest => ?_, fun node unread => ?_, order, rfl⟩
  · rw [lookup_put]
    rcases List.mem_append.mp latest.listed with earlier | last
    · have before : Newest state.applied newest :=
        ⟨earlier, fun other listed => latest.newest other (List.mem_append_left _ listed)⟩
      split
      · rename_i named
        have reached : record.index ≤ newest.index :=
          latest.newest record (List.mem_append_right _ List.mem_cons_self) named.symm
        rcases fresh newest earlier before named with behind | ⟨removal, last⟩
        · rw [unique newest earlier (Nat.le_antisymm behind reached)]
        · rw [AppliedRecord.entry, AppliedRecord.entry, removal, last]
          rfl
      · exact uses.read newest before
    · rw [List.mem_singleton.mp last, if_pos rfl]
  · rw [lookup_put, if_neg (unread record (List.mem_append_right _ List.mem_cons_self)).symm]
    exact uses.unread node fun other listed => unread other (List.mem_append_left _ listed)

theorem index_of_retained {index : Nat} (kept : state.retained library index = some record) :
    record.index = index := by
  obtain ⟨_, found⟩ := Option.ite_none_left_eq_some.mp kept
  obtain ⟨_, _, decoded⟩ := Option.bind_eq_some_iff.mp found
  exact index_of_decode decoded

/-! ## Steps -/

variable {item : Nat × MembershipRecord}

/-- The records of a poll come in the order of the topic, from the position on. -/
theorem fetch_sorted (state : MembershipState) (count : Nat) :
    (state.fetch count).Pairwise fun first second => first.1 < second.1 := by
  refine List.Pairwise.filterMap _ ?_ (List.pairwise_lt_range' (s := state.position))
  intro first second before item found other seen
  obtain ⟨_, there⟩ := Option.ite_none_left_eq_some.mp found
  obtain ⟨_, _, rfl⟩ := Option.map_eq_some_iff.mp there
  obtain ⟨_, there⟩ := Option.ite_none_left_eq_some.mp seen
  obtain ⟨_, _, rfl⟩ := Option.map_eq_some_iff.mp there
  exact before

theorem fetch_retained (library : MembershipLibrary) {count : Nat}
    (listed : item ∈ state.fetch count) :
    state.position ≤ item.1 ∧ item.1 < state.position + count ∧
      state.topic[item.1]? = some item.2 ∧
      state.retained library item.1 = library.decode item.1 item.2 := by
  obtain ⟨index, ranged, found⟩ := List.mem_filterMap.mp listed
  have ⟨there, passed⟩ := List.mem_range'_1.mp ranged
  obtain ⟨left, found⟩ := Option.ite_none_left_eq_some.mp found
  obtain ⟨record, place, rfl⟩ := Option.map_eq_some_iff.mp found
  refine ⟨there, passed, place, ?_⟩
  rw [retained, if_neg (by simpa using left), place]
  rfl

variable (reads : state.Reads library)
include reads

/-- A record that has just been published comes behind all that was read. -/
theorem Reads.publish (record : MembershipRecord) :
    Reads library { state with topic := state.topic ++ [record] } := by
  have kept {index : Nat} {found : MembershipRecord} (place : state.topic[index]? = some found) :
      (state.topic ++ [record])[index]? = some found := by
    rw [List.getElem?_append_left (List.getElem?_eq_some_iff.mp place).1, place]
  refine ⟨⟨reads.uses.read, reads.uses.unread, reads.uses.routed⟩,
    fun item listed => kept (reads.batch item listed), fun record listed => ?_, reads.sorted,
    reads.polled, fun index later there found => ?_⟩
  · obtain ⟨source, place, decoded⟩ := reads.applied record listed
    exact ⟨source, kept place, decoded⟩
  · rcases Nat.lt_or_ge index state.topic.length with old | last
    · refine reads.ahead index later there ?_
      rw [← found, retained, retained, List.getElem?_append_left old]
    · intro newest listed _ _
      obtain ⟨_, place, _⟩ := reads.applied newest listed
      have read := (List.getElem?_eq_some_iff.mp place).1
      rw [index_of_retained found]
      exact .inl (Nat.le_of_lt (Nat.lt_of_lt_of_le read last))

theorem Reads.compact (gone : Nat) :
    Reads library { state with removed := gone :: state.removed } := by
  refine { reads with
    uses := ⟨reads.uses.read, reads.uses.unread, reads.uses.routed⟩
    ahead := fun index later there kept => ?_ }
  obtain ⟨left, found⟩ := Option.ite_none_left_eq_some.mp kept
  refine reads.ahead index later there ?_
  rw [retained, if_neg fun before => left (List.mem_cons_of_mem _ before)]
  exact found

theorem Reads.seek (read : state.batch = [])
    (compacted : ∀ index < state.position, ∀ record ∈ (state.retained library index).toList,
      Fresh state.applied record) : Reads library { state with position := 0 } := by
  refine { reads with
    uses := ⟨reads.uses.read, reads.uses.unread, reads.uses.routed⟩
    polled := fun item listed => absurd (read ▸ listed) List.not_mem_nil
    ahead := fun index later _ kept => ?_ }
  rcases Nat.lt_or_ge index state.position with below | there
  · exact compacted index below later (Option.mem_toList.mpr kept)
  · exact reads.ahead index later there kept

theorem Reads.poll (count : Nat) :
    Reads library
      { state with position := state.position + count, batch := state.fetch count } := by
  refine ⟨⟨reads.uses.read, reads.uses.unread, reads.uses.routed⟩,
    fun item listed => (fetch_retained library listed).2.2.1, reads.applied,
    state.fetch_sorted count, fun item listed => ?_, fun index later there kept => ?_⟩
  · obtain ⟨there, passed, _, kept⟩ := fetch_retained library listed
    exact ⟨passed, fun record decoded => reads.ahead item.1 record there (kept.trans decoded)⟩
  · exact reads.ahead index later (Nat.le_of_add_right_le there) kept

theorem Reads.pop {rest : List (Nat × MembershipRecord)} (batch : state.batch = item :: rest) :
    Reads library { state with batch := rest } :=
  { reads with
    uses := ⟨reads.uses.read, reads.uses.unread, reads.uses.routed⟩
    batch := fun other listed => reads.batch other (batch ▸ List.mem_cons_of_mem _ listed)
    sorted := (List.pairwise_cons.mp (batch ▸ reads.sorted)).2
    polled := fun other listed => reads.polled other (batch ▸ List.mem_cons_of_mem _ listed) }

theorem Reads.put (order : IterationOrder) (place : state.topic[record.index]? = some source)
    (decoded : library.decode record.index source = some record)
    (fresh : Fresh state.applied record) (passed : record.index < state.position)
    (before : ∀ item ∈ state.batch, record.index < item.1) :
    (state.put order record).Reads library where
  uses := reads.uses.put order (fun _ => reads.unique place decoded) fresh
  batch := reads.batch
  applied other listed := by
    rcases List.mem_append.mp listed with earlier | last
    · exact reads.applied other earlier
    · rw [List.mem_singleton.mp last]
      exact ⟨source, place, decoded⟩
  sorted := reads.sorted
  polled other listed :=
    ⟨(reads.polled other listed).1, fun later decoded =>
      Fresh.append ((reads.polled other listed).2 later decoded)
        (index_of_decode decoded ▸ before other listed)⟩
  ahead index later there kept :=
    Fresh.append (reads.ahead index later there kept)
      (index_of_retained kept ▸ Nat.lt_of_lt_of_le passed there)

theorem Reads.step {action : MembershipAction} (compacted : state.SeeksCompacted library action)
    (taken : state.step library action = some next) : next.Reads library := by
  cases action with
  | publish record =>
    obtain ⟨_, ⟨⟩⟩ := Option.ite_none_right_eq_some.mp taken
    exact reads.publish record
  | compact index =>
    cases taken
    exact reads.compact index
  | assign partitions =>
    obtain ⟨read, ⟨⟩⟩ := Option.ite_none_right_eq_some.mp taken
    split
    · exact reads
    · rename_i assigned
      exact reads.seek read (compacted assigned)
  | poll count =>
    obtain ⟨_, ⟨⟩⟩ := Option.ite_none_right_eq_some.mp taken
    exact reads.poll count
  | apply order =>
    simp only [MembershipState.step] at taken
    split at taken
    · cases taken
    · rename_i index source rest batch
      split at taken
      · cases taken
        exact reads.pop batch
      · rename_i record decoded
        cases taken
        have listed : (index, source) ∈ state.batch := batch ▸ List.mem_cons_self
        obtain ⟨passed, fresh⟩ := reads.polled _ listed
        have place := reads.batch _ listed
        have behind := (List.pairwise_cons.mp (batch ▸ reads.sorted)).1
        obtain rfl := index_of_decode decoded
        exact (reads.pop batch).put order place decoded (fresh record decoded) passed behind

end MembershipState

/-- If each seek to the beginning finds of every node at most the newest record read, then after
every step of the reader the table has for each node the newest record that was read. -/
theorem membership_keeps_newest (library : MembershipLibrary) {actions : List MembershipAction}
    (compacted : Along (MembershipState.step library)
      (fun state action => state.SeeksCompacted library action) .initial actions) :
    Along (MembershipState.step library)
      (fun state action => ∀ next, state.step library action = some next → next.UsesNewest)
      .initial actions := by
  -- The positions carry the argument: what lies ahead of the reader is never stale.
  refine along_of_invariant (MembershipState.Reads library) ?_ ?_ MembershipState.reads_initial
    compacted
  · exact fun state action next reads allowed taken => reads.step allowed taken
  · exact fun state action reads allowed next taken => (reads.step allowed taken).uses

def anyOrder : IterationOrder :=
  ⟨id, fun _ => .refl _⟩

def listedPartitions : MembershipLibrary where
  nodeId _ := "a"
  readInfo value :=
    some { advertisedAddr := "a:1", owned := value.map UInt8.toNat, epoch := 0 }

/-- A replica takes partition 0 and gives it up again, and both records are read. -/
def takenAndGivenUp : List MembershipAction :=
  [.publish ⟨some [1], some [0]⟩, .publish ⟨some [1], some []⟩, .assign [("members", 0)], .poll 2,
    .apply anyOrder, .apply anyOrder]

/-- Compaction comes before the second assignment, so only the newer record is read again. -/
theorem compacted_topic_is_read_again :
    Along (MembershipState.step listedPartitions)
      (fun state action =>
        ∀ next, state.step listedPartitions action = some next → next.UsesNewest)
      .initial (takenAndGivenUp ++
        [.compact 0, .assign [("members", 0)], .poll 2, .apply anyOrder]) ∧
      (exec (MembershipState.step listedPartitions) .initial (takenAndGivenUp ++
        [.compact 0, .assign [("members", 0)], .poll 2, .apply anyOrder])).map
          (fun final => final.store.ownerOf 0) = some none :=
  ⟨membership_keeps_newest listedPartitions (by decide), by decide⟩

/-- Without compaction the first record of the replica takes the place of its second one. -/
theorem stale_record_replaces_newer :
    ∃ final, exec (MembershipState.step listedPartitions) .initial
        (takenAndGivenUp ++ [.assign [("members", 0)], .poll 1, .apply anyOrder]) = some final ∧
      final.applied.map (fun record => (record.index, record.info.map NodeInfo.owned)) =
        [(0, some [0]), (1, some []), (0, some [0])] ∧
      final.store.ownerOf 0 = some "a:1" :=
  ⟨_, rfl, by decide, by decide⟩

end KrabkaGateway.Dedup
