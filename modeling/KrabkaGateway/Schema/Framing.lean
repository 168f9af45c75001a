import KrabkaGateway.Schema.Wire

/-!
# Frames, read by position

`schema/wire.rs` with its positions: which bytes the readers look at, how often their
loop turns, and what an index or a range out of bounds does. The copying functions
return bytes of their own, the others a window of the shared buffer.
-/

namespace KrabkaGateway.Schema

open Lib

/-! ## Readers with a position -/

/-- How a function ends. An index or a range out of bounds panics. -/
inductive Outcome (α : Type) where
  | value (value : α)
  | error (error : CodecError)
  | outOfBounds
  deriving DecidableEq, Repr

variable {α β γ δ : Type}

def Outcome.map (f : α → β) : Outcome α → Outcome β
  | .value found => .value (f found)
  | .error reason => .error reason
  | .outOfBounds => .outOfBounds

def Outcome.ofExcept : Except CodecError α → Outcome α
  | .ok found => .value found
  | .error reason => .error reason

/-- The positions that a reader looked at, in order, the turns of the varint loop, and how it
ended. -/
structure Traced (α : Type) where
  reads : List Nat
  turns : Nat
  outcome : Outcome α
  deriving DecidableEq, Repr

namespace Traced

def silent (outcome : Outcome α) : Traced α where
  reads := []
  turns := 0
  outcome := outcome

def andThen (first : Traced α) (next : α → Traced β) : Traced β :=
  match first.outcome with
  | .value value =>
    { reads := first.reads ++ (next value).reads
      turns := first.turns + (next value).turns
      outcome := (next value).outcome }
  | .error error => { first with outcome := .error error }
  | .outOfBounds => { first with outcome := .outOfBounds }

def afterTurn (pos : Nat) (rest : Traced α) : Traced α :=
  { rest with reads := pos :: rest.reads, turns := rest.turns + 1 }

end Traced

/-- The loop of `read_varint`. -/
def readVarintAt (buf : Bytes) (pos result shift : Nat) : Traced (Nat × Nat) :=
  if pos ≥ buf.length then
    { reads := []
      turns := 1
      outcome := .error (.framing "truncated varint in message-index prefix") }
  else
    match buf[pos]? with
    | none => { reads := [pos], turns := 1, outcome := .outOfBounds }
    | some byte =>
      let result := result ||| ((byte.toNat &&& 0x7f) <<< shift) % 2 ^ 64
      if byte.toNat &&& 0x80 = 0 then
        { reads := [pos], turns := 1, outcome := .value (result, pos + 1) }
      else if 64 ≤ shift + 7 then
        { reads := [pos]
          turns := 1
          outcome := .error (.framing "varint overflow in message-index prefix") }
      else .afterTurn pos (readVarintAt buf (pos + 1) result (shift + 7))
termination_by buf.length - pos

def skipVarintsAt (buf : Bytes) : Nat → Nat → Traced Nat
  | 0, pos => .silent (.value pos)
  | count + 1, pos =>
    (readVarintAt buf pos 0 0).andThen fun (_, next) => skipVarintsAt buf count next

def protoPayloadStart (payload : Bytes) : Traced Nat :=
  (readVarintAt payload 0 0 0).andThen fun (count, pos) =>
    if count = 0 then .silent (.value pos) else skipVarintsAt payload count pos

/-- `bytes[start..].to_vec()`. -/
def copyFrom (bytes : Bytes) (start : Nat) : Traced Bytes :=
  if start ≤ bytes.length then
    { reads := List.range' start (bytes.length - start)
      turns := 0
      outcome := .value (bytes.drop start) }
  else .silent .outOfBounds

def stripProtoIndex (payload : Bytes) : Traced Bytes :=
  (protoPayloadStart payload).andThen (copyFrom payload)

def decodeFrame (bytes : Bytes) : Outcome (Int32 × Bytes) :=
  match frameSchemaId bytes with
  | .error error => .error error
  | .ok id => (copyFrom bytes 5).outcome.map fun payload => (id, payload)

/-! ## Shared bytes -/

/-- A window of a buffer that others may hold as well. -/
structure SharedBytes where
  buffer : Bytes
  start : Nat
  length : Nat
  inside : start + length ≤ buffer.length

namespace SharedBytes

def contents (shared : SharedBytes) : Bytes :=
  (shared.buffer.drop shared.start).take shared.length

theorem length_contents (shared : SharedBytes) : shared.contents.length = shared.length := by
  have := shared.inside
  rw [contents, List.length_take, List.length_drop]
  omega

/-- `bytes.slice(start..)`. -/
def slice (shared : SharedBytes) (start : Nat) : Outcome SharedBytes :=
  if within : start ≤ shared.length then
    .value {
      buffer := shared.buffer
      start := shared.start + start
      length := shared.length - start
      inside := by
        have := shared.inside
        omega }
  else .outOfBounds

def decodeFrameBytes (shared : SharedBytes) : Outcome (Int32 × SharedBytes) :=
  match frameSchemaId shared.contents with
  | .error error => .error error
  | .ok id => (shared.slice 5).map fun payload => (id, payload)

def stripProtoIndexBytes (shared : SharedBytes) : Traced SharedBytes :=
  (protoPayloadStart shared.contents).andThen fun start => .silent (shared.slice start)

theorem copyFrom_contents (shared : SharedBytes) (start : Nat) :
    (copyFrom shared.contents start).outcome = (shared.slice start).map contents := by
  unfold copyFrom slice
  rw [length_contents]
  split
  · simp only [Outcome.map, contents, List.drop_take, List.drop_drop]
  · rfl

theorem decodeFrame_contents (shared : SharedBytes) :
    decodeFrame shared.contents =
      shared.decodeFrameBytes.map fun (id, payload) => (id, payload.contents) := by
  unfold decodeFrame decodeFrameBytes
  cases frameSchemaId shared.contents with
  | error error => rfl
  | ok id =>
    dsimp only
    rw [copyFrom_contents]
    cases shared.slice 5 <;> rfl

theorem stripProtoIndex_contents (shared : SharedBytes) :
    (stripProtoIndex shared.contents).outcome =
      shared.stripProtoIndexBytes.outcome.map contents := by
  unfold stripProtoIndex stripProtoIndexBytes Traced.andThen
  cases (protoPayloadStart shared.contents).outcome with
  | value start => exact copyFrom_contents shared start
  | error | outOfBounds => rfl

end SharedBytes

/-! ## What the readers look at -/

/-- The reader went from a position on over bytes of the buffer, one after another, with a turn for
each; in a last turn it may have found no byte. `position` is where it stands when it succeeds. -/
structure Traced.Forward (buf : Bytes) (pos : Nat) (position : α → Nat) (traced : Traced α) :
    Prop where
  reads : traced.reads = List.range' pos traced.reads.length
  inside : pos + traced.reads.length ≤ buf.length
  turns : traced.turns ≤ traced.reads.length + 1
  bounded : traced.outcome ≠ .outOfBounds
  ends : ∀ value, traced.outcome = .value value →
    position value = pos + traced.reads.length ∧ traced.turns ≤ traced.reads.length

namespace Traced.Forward

variable {buf : Bytes} {pos : Nat} {position : α → Nat} {onward : β → Nat}

theorem silent {value : α} (inside : pos ≤ buf.length) (here : position value = pos) :
    Forward buf pos position (Traced.silent (.value value)) where
  reads := rfl
  inside := inside
  turns := Nat.zero_le _
  bounded := nofun
  ends := by
    rintro _ ⟨⟩
    exact ⟨here, le_refl _⟩

theorem afterTurn {traced : Traced α}
    (rest : Forward buf (pos + 1) position traced) :
    Forward buf pos position (.afterTurn pos traced) where
  reads := by
    rw [Traced.afterTurn, List.length_cons, List.range'_succ, ← rest.reads]
  inside := by
    have := rest.inside
    simp only [Traced.afterTurn, List.length_cons]
    omega
  turns := by
    have := rest.turns
    simp only [Traced.afterTurn, List.length_cons]
    omega
  bounded := rest.bounded
  ends value found := by
    have := rest.ends value found
    simp only [Traced.afterTurn, List.length_cons]
    omega

theorem andThen {first : Traced α} {next : α → Traced β} (before : Forward buf pos position first)
    (after : ∀ value, first.outcome = .value value →
      Forward buf (position value) onward (next value)) :
    Forward buf pos onward (first.andThen next) := by
  unfold Traced.andThen
  cases found : first.outcome with
  | error error =>
    exact ⟨before.reads, before.inside, before.turns, nofun, nofun⟩
  | outOfBounds => exact absurd found before.bounded
  | value value =>
    obtain ⟨place, turned⟩ := before.ends value found
    have later := after value found
    rw [place] at later
    refine ⟨?_, ?_, ?_, later.bounded, fun result reached => ?_⟩
    · rw [List.length_append, ← List.range'_append_1, ← before.reads, ← later.reads]
    · have := later.inside
      rw [List.length_append]
      omega
    · have := later.turns
      rw [List.length_append]
      dsimp only
      omega
    · have := later.ends result reached
      rw [List.length_append]
      dsimp only
      omega

end Traced.Forward

variable {buf : Bytes} {pos : Nat}

theorem forward_readVarintAt (result shift : Nat) (inside : pos ≤ buf.length) :
    Traced.Forward buf pos Prod.snd (readVarintAt buf pos result shift) := by
  induction pos, result, shift using readVarintAt.induct buf with
  | case1 pos result shift beyond =>
    rw [readVarintAt, if_pos beyond]
    exact ⟨rfl, inside, le_refl _, nofun, nofun⟩
  | case2 pos result shift before missing =>
    rw [List.getElem?_eq_none_iff] at missing
    exact absurd missing before
  | case3 pos result shift before byte found last =>
    rw [readVarintAt, if_neg before, found]
    dsimp only
    rw [if_pos last]
    exact ⟨rfl, by simp; omega, by simp, nofun, by rintro _ ⟨⟩; simp⟩
  | case4 pos result shift before byte found continues full =>
    rw [readVarintAt, if_neg before, found]
    dsimp only
    rw [if_neg continues, if_pos full]
    exact ⟨rfl, by simp; omega, by simp, nofun, nofun⟩
  | case5 pos result shift before byte found next continues room ih =>
    rw [readVarintAt, if_neg before, found]
    dsimp only
    rw [if_neg continues, if_neg room]
    exact .afterTurn (ih (by omega))

theorem forward_skipVarintsAt (count : Nat) (inside : pos ≤ buf.length) :
    Traced.Forward buf pos id (skipVarintsAt buf count pos) := by
  induction count generalizing pos with
  | zero => exact .silent inside rfl
  | succ count ih =>
    have read := forward_readVarintAt 0 0 inside
    refine read.andThen fun (_, next) found => ?_
    exact ih ((read.ends _ found).1.trans_le read.inside)

theorem forward_protoPayloadStart (payload : Bytes) :
    Traced.Forward payload 0 id (protoPayloadStart payload) := by
  have read : Traced.Forward payload 0 Prod.snd (readVarintAt payload 0 0 0) :=
    forward_readVarintAt 0 0 (Nat.zero_le _)
  refine read.andThen fun (count, pos) found => ?_
  have inside : pos ≤ payload.length := (read.ends _ found).1.trans_le read.inside
  dsimp only
  split
  · exact .silent inside rfl
  · exact forward_skipVarintsAt count inside

/-- The copy goes over what the reader of the indexes has left. -/
theorem forward_stripProtoIndex (payload : Bytes) :
    Traced.Forward payload 0 (fun _ => payload.length) (stripProtoIndex payload) := by
  have start := forward_protoPayloadStart payload
  refine start.andThen fun pos found => ?_
  have inside : pos ≤ payload.length := (start.ends _ found).1.trans_le start.inside
  rw [id, copyFrom, if_pos inside]
  have rest : pos + (payload.length - pos) = payload.length := by omega
  exact ⟨by simp, by simpa using rest.le, Nat.zero_le _, nofun, by simp [rest]⟩

/-! ## The same bytes -/

theorem drop_of_getElem? {bytes : Bytes} {byte : UInt8} (found : bytes[pos]? = some byte) :
    bytes.drop pos = byte :: bytes.drop (pos + 1) := by
  obtain ⟨inside, rfl⟩ := List.getElem?_eq_some_iff.mp found
  exact List.drop_eq_getElem_cons inside

theorem outcome_readVarintAt (buf : Bytes) (pos result shift : Nat) :
    ((readVarintAt buf pos result shift).outcome.map fun (value, next) => (value, buf.drop next)) =
      .ofExcept (readVarintFrom (buf.drop pos) result shift) := by
  induction pos, result, shift using readVarintAt.induct buf with
  | case1 pos result shift beyond =>
    rw [readVarintAt, if_pos beyond, List.drop_eq_nil_of_le beyond]
    rfl
  | case2 pos result shift before missing =>
    rw [List.getElem?_eq_none_iff] at missing
    exact absurd missing before
  | case3 pos result shift before byte found last =>
    rw [readVarintAt, if_neg before, found, drop_of_getElem? found, readVarintFrom]
    dsimp only
    rw [if_pos last, if_pos last]
    rfl
  | case4 pos result shift before byte found continues full =>
    rw [readVarintAt, if_neg before, found, drop_of_getElem? found, readVarintFrom]
    dsimp only
    rw [if_neg continues, if_neg continues, if_pos full, if_pos full]
    rfl
  | case5 pos result shift before byte found next continues room ih =>
    rw [readVarintAt, if_neg before, found, drop_of_getElem? found, readVarintFrom]
    dsimp only
    rw [if_neg continues, if_neg continues, if_neg room, if_neg room]
    exact ih

theorem outcome_andThen {first : Traced α} {next : α → Traced β} {reader : Except CodecError γ}
    {onward : γ → Except CodecError δ} {left : α → γ} {behind : β → δ}
    (same : first.outcome.map left = .ofExcept reader)
    (later : ∀ value, first.outcome = .value value →
      (next value).outcome.map behind = .ofExcept (onward (left value))) :
    (first.andThen next).outcome.map behind = .ofExcept (reader.bind onward) := by
  unfold Traced.andThen
  cases found : first.outcome with
  | value value =>
    rw [found] at same
    cases reader with
    | error error => cases same
    | ok read =>
      cases same
      exact later value found
  | error error =>
    rw [found] at same
    cases reader with
    | error reason =>
      cases same
      rfl
    | ok read => cases same
  | outOfBounds =>
    rw [found] at same
    cases reader <;> cases same

theorem outcome_skipVarintsAt (buf : Bytes) (count pos : Nat) :
    (skipVarintsAt buf count pos).outcome.map (buf.drop ·) =
      .ofExcept (skipVarints count (buf.drop pos)) := by
  induction count generalizing pos with
  | zero => rfl
  | succ count ih =>
    have each : skipVarints (count + 1) (buf.drop pos) =
        (readVarintFrom (buf.drop pos) 0 0).bind fun read => skipVarints count read.2 := by
      rw [skipVarints, readVarint]
      cases readVarintFrom (buf.drop pos) 0 0 <;> rfl
    rw [skipVarintsAt, each]
    exact outcome_andThen (outcome_readVarintAt buf pos 0 0)
      fun read _ => ih read.2

theorem outcome_protoPayloadStart (payload : Bytes) :
    (protoPayloadStart payload).outcome.map (payload.drop ·) =
      .ofExcept (stripProtoIndexBytes payload) := by
  have each : stripProtoIndexBytes payload =
      (readVarintFrom payload 0 0).bind fun read =>
        if read.1 = 0 then .ok read.2 else skipVarints read.1 read.2 := by
    rw [stripProtoIndexBytes, readVarint]
    cases readVarintFrom payload 0 0 <;> rfl
  rw [protoPayloadStart, each]
  refine outcome_andThen (outcome_readVarintAt payload 0 0 0) fun read _ => ?_
  dsimp only
  split
  · rfl
  · exact outcome_skipVarintsAt payload read.1 read.2

theorem outcome_stripProtoIndex (payload : Bytes) :
    (stripProtoIndex payload).outcome = .ofExcept (stripProtoIndexBytes payload) := by
  have start := forward_protoPayloadStart payload
  rw [← outcome_protoPayloadStart, stripProtoIndex, Traced.andThen]
  cases found : (protoPayloadStart payload).outcome with
  | value pos =>
    have inside : pos ≤ payload.length := (start.ends _ found).1.trans_le start.inside
    dsimp only
    rw [copyFrom, if_pos inside]
    rfl
  | error | outOfBounds => rfl

theorem decodeFrame_eq (bytes : Bytes) :
    decodeFrame bytes = .ofExcept (decodeFrameBytes bytes) := by
  unfold decodeFrame decodeFrameBytes
  cases found : frameSchemaId bytes with
  | error error => rfl
  | ok id =>
    have long : 5 ≤ bytes.length := by
      unfold frameSchemaId at found
      split at found
      · simp
      · cases found
    dsimp only
    rw [copyFrom, if_pos long]
    rfl

/-- A frame comes back with its id and its payload; the copying and the sharing readers agree on
every value; and whatever number of message indexes a payload declares, its bytes are looked at one
after another from the first one on, none twice and none beyond the end. -/
theorem frames_come_back_and_readers_stay_inside :
    (∀ id format payload, ∃ rest,
      decodeFrame (encodeFrame id format payload) = .value (id, rest) ∧
      if format = .protobuf then (stripProtoIndex rest).outcome = .value payload
      else rest = payload) ∧
    (∀ shared : SharedBytes,
      (decodeFrame shared.contents =
        shared.decodeFrameBytes.map fun (id, payload) => (id, payload.contents)) ∧
      (stripProtoIndex shared.contents).outcome =
        shared.stripProtoIndexBytes.outcome.map SharedBytes.contents) ∧
    ∀ payload,
      (∃ count ≤ payload.length, (stripProtoIndex payload).reads = List.range count) ∧
      (stripProtoIndex payload).turns ≤ payload.length + 1 ∧
      (stripProtoIndex payload).outcome ≠ .outOfBounds ∧
      decodeFrame payload ≠ .outOfBounds := by
  refine ⟨fun id format payload => ?_, fun shared => ⟨shared.decodeFrame_contents,
    shared.stripProtoIndex_contents⟩, fun payload => ?_⟩
  · refine ⟨(if format = .protobuf then [0] else []) ++ payload, ?_, ?_⟩
    · rw [encodeFrame, List.append_assoc, decodeFrame_eq, decodeFrameBytes_bigEndian]
      rfl
    · split
      · rw [outcome_stripProtoIndex]
        rfl
      · rfl
  · have forward := forward_stripProtoIndex payload
    have inside : (stripProtoIndex payload).reads.length ≤ payload.length := by
      simpa using forward.inside
    refine ⟨⟨_, inside, ?_⟩, forward.turns.trans (Nat.succ_le_succ inside), forward.bounded, ?_⟩
    · rw [List.range_eq_range']
      exact forward.reads
    · rw [decodeFrame_eq]
      cases decodeFrameBytes payload <;> nofun

/-! ## Message indexes -/

/-- The number of the indexes is taken for its zig-zag code, which is itself only for none. -/
theorem path_of_stripped {path : List Nat} {payload : Bytes} (other : path ≠ [0])
    (stripped : stripProtoIndexBytes (messageIndexBytes path ++ payload) = .ok payload) :
    path = [] := by
  rw [messageIndexBytes, if_neg other, List.append_assoc, stripProtoIndexBytes] at stripped
  split at stripped
  · rename_i count rest read
    obtain ⟨number, rfl⟩ := readVarint_encode_eq_ok read
    have skipped : skipVarints count ((path.map zigzag).flatMap Leb128.encode ++ payload) =
        .ok payload := by
      split at stripped
      · rename_i zero
        rw [zero]
        exact stripped
      · exact stripped
    have same := count_of_skipVarints skipped
    rw [List.length_map] at same
    rw [zigzag, ← same] at number
    rw [← List.length_eq_zero_iff, ← same]
    omega
  · cases stripped

/-- The payload is returned exactly if the indexes are those of the first message, or none. -/
theorem message_indexes_stripped_iff (path : List Nat) (payload : Bytes) :
    (stripProtoIndex (messageIndexBytes path ++ payload)).outcome = .value payload ↔
      path = [0] ∨ path = [] := by
  rw [outcome_stripProtoIndex]
  constructor
  · intro returned
    have stripped : stripProtoIndexBytes (messageIndexBytes path ++ payload) = .ok payload := by
      cases read : stripProtoIndexBytes (messageIndexBytes path ++ payload) with
      | error error =>
        rw [read] at returned
        cases returned
      | ok rest =>
        rw [read] at returned
        cases returned
        rfl
    by_cases first : path = [0]
    · exact Or.inl first
    · exact Or.inr (path_of_stripped first stripped)
  · rintro (rfl | rfl)
    · rfl
    · rw [messageIndexBytes, if_neg (by simp)]
      have zero : Leb128.encode (zigzag 0) = [0] := Leb128.encode_of_lt (by decide)
      rw [List.length_nil, zero]
      rfl

/-- Behind the indexes of the second message the payload loses its first byte. -/
theorem second_message_loses_payload :
    (stripProtoIndex (messageIndexBytes [1] ++ [8, 42])).outcome = .value [42] := by
  rw [outcome_stripProtoIndex, messageIndexBytes, if_neg (by decide)]
  have two : Leb128.encode (zigzag 1) = [2] := Leb128.encode_of_lt (by decide)
  simp only [List.length_singleton, List.map_singleton, List.flatMap_singleton, two]
  rfl

/-! ## Exactness of one number -/

theorem position_readVarintAt {value next : Nat} (inside : pos ≤ buf.length)
    (read : (readVarintAt buf pos 0 0).outcome = .value (value, next)) :
    readVarint (buf.drop pos) = .ok (value, buf.drop next) ∧ next ≤ buf.length := by
  have forward := forward_readVarintAt 0 0 inside
  have same := outcome_readVarintAt buf pos 0 0
  rw [read] at same
  constructor
  · cases found : readVarintFrom (buf.drop pos) 0 0 with
    | error error =>
      rw [found] at same
      cases same
    | ok answer =>
      rw [found] at same
      cases same
      exact found
  · have place : next = pos + _ := (forward.ends _ read).1
    exact place.trans_le forward.inside

/-- `read_varint` answers where a number of at most ten bytes begins, with that number modulo
2^64. -/
theorem readVarintAt_eq_value_iff {value next : Nat} (inside : pos ≤ buf.length) :
    (readVarintAt buf pos 0 0).outcome = .value (value, next) ↔
      ∃ digits behind number, buf.drop pos = digits ++ behind ∧ Leb128.Number digits number ∧
        digits.length ≤ 10 ∧ value = number % 2 ^ 64 ∧ next = pos + digits.length := by
  constructor
  · intro read
    obtain ⟨answer, bounded⟩ := position_readVarintAt inside read
    rw [readVarint_eq_ok_iff, Leb128.scan_start_eq_ok_iff] at answer
    obtain ⟨digits, number, split, digitsOf, short, rfl⟩ := answer
    refine ⟨digits, _, number, split, digitsOf, short, rfl, ?_⟩
    have lengths := congrArg List.length split
    rw [List.length_append, List.length_drop, List.length_drop] at lengths
    omega
  · rintro ⟨digits, behind, number, split, digitsOf, short, rfl, rfl⟩
    have answer : readVarint (buf.drop pos) = .ok (number % 2 ^ 64, behind) := by
      rw [readVarint_eq_ok_iff, Leb128.scan_start_eq_ok_iff]
      exact ⟨digits, number, split, digitsOf, short, rfl⟩
    have same := outcome_readVarintAt buf pos 0 0
    rw [← readVarint, answer] at same
    cases found : (readVarintAt buf pos 0 0).outcome with
    | error | outOfBounds =>
      rw [found] at same
      cases same
    | value reached =>
      obtain ⟨value, next⟩ := reached
      obtain ⟨again, bounded⟩ := position_readVarintAt inside found
      rw [answer] at again
      obtain ⟨rfl, rfl⟩ := Prod.mk.inj (Except.ok.inj again)
      have lengths := congrArg List.length split
      rw [List.length_append, List.length_drop, List.length_drop] at lengths
      have place : next = pos + digits.length := by omega
      rw [place]

theorem error_of_readVarintAt (inside : pos ≤ buf.length)
    (refused : ∀ value next, (readVarintAt buf pos 0 0).outcome ≠ .value (value, next)) :
    ∃ error, (readVarintAt buf pos 0 0).outcome = .error error := by
  cases found : (readVarintAt buf pos 0 0).outcome with
  | value reached => exact absurd found (refused reached.1 reached.2)
  | error error => exact ⟨error, rfl⟩
  | outOfBounds => exact absurd found (forward_readVarintAt 0 0 inside).bounded

/-- `read_varint` answers exactly where a number below 2^64 begins that takes at most ten bytes,
with that number and the position behind it, and gives an error everywhere else, unless the number
of ten bytes that begins there is 2^64 or more. -/
theorem varint_exact_iff (buf : Bytes) (pos : Nat) (inside : pos < buf.length) :
    ((∀ value next, (readVarintAt buf pos 0 0).outcome = .value (value, next) ↔
        ∃ digits behind, buf.drop pos = digits ++ behind ∧ Leb128.Number digits value ∧
          value < 2 ^ 64 ∧ digits.length ≤ 10 ∧ next = pos + digits.length) ∧
      ((∀ value next, (readVarintAt buf pos 0 0).outcome ≠ .value (value, next)) →
        ∃ error, (readVarintAt buf pos 0 0).outcome = .error error)) ↔
    ∀ digits behind number, buf.drop pos = digits ++ behind → Leb128.Number digits number →
      digits.length = 10 → number < 2 ^ 64 := by
  constructor
  · rintro ⟨exact', _⟩ digits behind number split digitsOf ten
    have read := (readVarintAt_eq_value_iff inside.le).mpr
      ⟨digits, behind, number, split, digitsOf, ten.le, rfl, rfl⟩
    obtain ⟨others, rest, again, othersOf, below, _, _⟩ := (exact' _ _).mp read
    obtain ⟨_, same, _⟩ := digitsOf.unique othersOf (split.symm.trans again)
    exact same ▸ below
  · intro fits
    refine ⟨fun value next => ?_, error_of_readVarintAt inside.le⟩
    rw [readVarintAt_eq_value_iff inside.le]
    constructor
    · rintro ⟨digits, behind, number, split, digitsOf, short, rfl, rfl⟩
      have below : number < 2 ^ 64 := by
        rcases Nat.lt_or_eq_of_le short with fewer | ten
        · exact (digitsOf.lt_pow).trans_le (Nat.pow_le_pow_right (by decide) (by omega))
        · exact fits digits behind number split digitsOf ten
      rw [Nat.mod_eq_of_lt below]
      exact ⟨digits, behind, split, digitsOf, below, short, rfl⟩
    · rintro ⟨digits, behind, split, digitsOf, below, short, rfl⟩
      exact ⟨digits, behind, value, split, digitsOf, short, (Nat.mod_eq_of_lt below).symm, rfl⟩

theorem two_bytes_are_read_exactly :
    (readVarintAt [0x96, 0x01, 0xff] 0 0 0).outcome = .value (150, 2) := by
  have short : ∀ (digits behind : Bytes) (number : Nat),
      [0x96, 0x01, 0xff].drop 0 = digits ++ behind → Leb128.Number digits number →
      digits.length = 10 → number < 2 ^ 64 := by
    intro digits behind number split _ ten
    have lengths := congrArg List.length split
    rw [List.length_append, ten] at lengths
    simp only [List.drop_zero, List.length_cons, List.length_nil] at lengths
    omega
  refine (((varint_exact_iff [0x96, 0x01, 0xff] 0 (by decide)).mpr short).1 150 2).mpr ?_
  exact ⟨[0x96, 0x01], [0xff], rfl, .more (by decide) (.last (by decide)), by decide, by decide,
    rfl⟩

theorem encode_two_pow_64 : Leb128.encode (2 ^ 64) =
    [0x80, 0x80, 0x80, 0x80, 0x80, 0x80, 0x80, 0x80, 0x80, 0x02] := by
  simp [Leb128.encode]

/-- The number 2^64 is read as 0. -/
theorem two_pow_64_is_read_as_zero :
    Leb128.Number [0x80, 0x80, 0x80, 0x80, 0x80, 0x80, 0x80, 0x80, 0x80, 0x02] (2 ^ 64) ∧
    (readVarintAt [0x80, 0x80, 0x80, 0x80, 0x80, 0x80, 0x80, 0x80, 0x80, 0x02] 0 0 0).outcome =
      .value (0, 10) := by
  have number := Leb128.number_encode (2 ^ 64)
  rw [encode_two_pow_64] at number
  refine ⟨number, (readVarintAt_eq_value_iff (Nat.zero_le _)).mpr ?_⟩
  exact ⟨_, [], 2 ^ 64, (List.append_nil _).symm, number, by decide, by decide, by decide⟩

end KrabkaGateway.Schema
