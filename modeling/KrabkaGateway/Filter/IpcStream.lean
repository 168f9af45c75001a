import KrabkaGateway.Filter.Slices
import KrabkaGateway.Lib.Framed

/-!
# Buffers for Arrow IPC streams

`arrow_ipc_stream_reader` of `filter.rs` refuses a value whose first message does not have
the metadata it declares, since the reader makes a buffer of the declared length before
it reads. The reader goes on to the body and to later messages, whose lengths nothing
checks. The reader of the Arrow library is modelled as far as it makes buffers: how it
finds a message, what the message declares, and where it stops. The metadata of a message
is a flatbuffer.
-/

namespace KrabkaGateway.Filter

open Lib

/-! ## The reader -/

/-- The little-endian number in the first four bytes. -/
def chunkLength : Bytes → Option (Nat × Bytes)
  | b0 :: b1 :: b2 :: b3 :: rest =>
    some (b0.toNat + 2 ^ 8 * b1.toNat + 2 ^ 16 * b2.toNat + 2 ^ 24 * b3.toNat, rest)
  | _ => none

/-- The length of the metadata of the next message. The stream ends with its bytes or with a zero;
a number that is negative as an `i32` is an error. -/
def readMetaLen (bytes : Bytes) : Option (Nat × Bytes) :=
  match chunkLength ((bytes.dropPrefix? arrowIpcContinuationMarker).getD bytes) with
  | none => none
  | some (length, rest) => if length = 0 ∨ 2 ^ 31 ≤ length then none else some (length, rest)

/-! ## Metadata -/

/-- A little-endian number in the metadata. -/
def numberAt (metadata : Bytes) (place size : Nat) : Nat :=
  ((metadata.drop place).take size).foldr (fun byte rest => byte.toNat + 2 ^ 8 * rest) 0

/-- The place of a field of the root table, if the table has it. The table begins with the distance
back to its list of fields, a signed number. -/
def rootField (metadata : Bytes) (index : Nat) : Option Nat :=
  let table := numberAt metadata 0 4
  let fields := ((table + 2 ^ 32 - numberAt metadata table 4) % 2 ^ 32)
  let offset := numberAt metadata (fields + 4 + 2 * index) 2
  if 4 + 2 * index < numberAt metadata fields 2 ∧ offset ≠ 0 then some (table + offset) else none

inductive MessageHeader where
  | schema
  | dictionaryBatch
  | recordBatch
  | other
  deriving DecidableEq, Repr

def headerType (metadata : Bytes) : MessageHeader :=
  match (rootField metadata 1).elim 0 fun place => numberAt metadata place 1 with
  | 1 => .schema
  | 2 => .dictionaryBatch
  | 3 => .recordBatch
  | _ => .other

/-- An `i64` that is taken for a `usize`. -/
def bodyLength (metadata : Bytes) : Nat :=
  (rootField metadata 3).elim 0 fun place => numberAt metadata place 8

structure IpcFormat where
  /-- The metadata is a flatbuffer of a message. -/
  verifies : Bytes → Bool
  /-- The last of these messages can be made use of. -/
  decodes : List (Bytes × Bytes) → Bool
  /-- The batch of the last message, if it has one. -/
  batch : List (Bytes × Bytes) → Option Batch

/-- Whether the last of these messages is taken: the schema first, then dictionaries and batches. -/
def IpcFormat.reads (format : IpcFormat) (messages : List (Bytes × Bytes)) : Bool :=
  format.decodes messages &&
    match messages.map fun message => headerType message.1 with
    | [] => false
    | first :: later => first == .schema && later.all fun kind =>
        kind == .dictionaryBatch || kind == .recordBatch

theorem length_dropPrefix? (bytes front : Bytes) :
    ((bytes.dropPrefix? front).getD bytes).length ≤ bytes.length := by
  cases found : bytes.dropPrefix? front with
  | none => exact le_rfl
  | some rest =>
    obtain ⟨start, rfl, _⟩ := List.dropPrefix?_eq_some_iff.mp found
    simp

variable {length : Nat}

theorem length_chunkLength {bytes rest : Bytes} (found : chunkLength bytes = some (length, rest)) :
    rest.length < bytes.length := by
  unfold chunkLength at found
  split at found
  · cases found
    simp only [List.length_cons]
    omega
  · cases found

theorem readMetaLen_shorter {bytes rest : Bytes} (found : readMetaLen bytes = some (length, rest)) :
    rest.length < bytes.length := by
  unfold readMetaLen at found
  cases chunk : chunkLength ((bytes.dropPrefix? arrowIpcContinuationMarker).getD bytes) with
  | none =>
    rw [chunk] at found
    cases found
  | some own =>
    obtain ⟨own, after⟩ := own
    rw [chunk] at found
    dsimp only at found
    split at found
    · cases found
    · cases found
      exact (length_chunkLength chunk).trans_le (length_dropPrefix? _ _)

def IpcFormat.framing (format : IpcFormat) : Framing UInt8 where
  header := readMetaLen
  body metadata := if format.verifies metadata then some (bodyLength metadata) else none
  shorter := readMetaLen_shorter

/-! ## The gateway -/

/-- The check of `arrow_ipc_stream_reader`. -/
def opensIpcStream (value : Bytes) : Bool :=
  holdsFirstMessage ((value.dropPrefix? arrowIpcContinuationMarker).getD value)

theorem holdsFirstMessage_eq (framed : Bytes) :
    holdsFirstMessage framed =
      match chunkLength framed with
      | none => false
      | some (length, message) =>
        decide (length < 2 ^ 31 ∧ length ≠ 0 ∧ length ≤ message.length) := by
  rcases framed with _ | ⟨b0, _ | ⟨b1, _ | ⟨b2, _ | ⟨b3, message⟩⟩⟩⟩ <;> rfl

theorem opensIpcStream_iff {value : Bytes} :
    opensIpcStream value = true ↔
      ∃ length rest, readMetaLen value = some (length, rest) ∧ length ≤ rest.length := by
  rw [opensIpcStream, holdsFirstMessage_eq, readMetaLen]
  cases chunkLength ((value.dropPrefix? arrowIpcContinuationMarker).getD value) with
  | none => simp
  | some found =>
    obtain ⟨length, rest⟩ := found
    simp only [decide_eq_true_eq]
    constructor
    · rintro ⟨small, nonzero, fits⟩
      exact ⟨length, rest, if_neg (by omega), fits⟩
    · rintro ⟨_, _, found, fits⟩
      split at found
      · cases found
      · cases found
        omega

/-- The buffers of `decode_arrow_ipc_record`. -/
def decodeArrowIpcAllocations (format : IpcFormat) (value : Bytes) : List Allocation :=
  if opensIpcStream value then
    format.framing.allocations format.reads (value.length + 1) [] value
  else []

/-- The buffers of `matches_arrow_ipc_record`, which evaluates each batch before it reads on. -/
def CompiledFilter.matchesArrowIpcAllocations (floats : Floats) (library : Library)
    (read : Bytes → Option Value) (filter : CompiledFilter) (format : IpcFormat) (value : Bytes) :
    List Allocation :=
  let evaluates (messages : List (Bytes × Bytes)) : Bool :=
    match format.batch messages with
    | none => true
    | some batch => (filter.evaluateArrowBatch floats library read batch).isOk
  if opensIpcStream value then
    format.framing.allocations (fun messages => format.reads messages && evaluates messages)
      (value.length + 1) [] value
  else []

/-- What the check leaves open: that the first message has the body it declares, and that the
messages behind it are whole, as far as they are read. -/
def IpcFormat.RestWhole (format : IpcFormat) (value : Bytes) : Prop :=
  ∀ length rest, readMetaLen value = some (length, rest) → format.verifies (rest.take length) →
    let body := bodyLength (rest.take length)
    body ≤ (rest.drop length).length ∧
      let first := [(rest.take length, (rest.drop length).take body)]
      (format.reads first = true →
        format.framing.Whole format.reads first ((rest.drop length).drop body))

theorem whole_iff_restWhole {format : IpcFormat} {value : Bytes}
    (opens : opensIpcStream value = true) :
    format.framing.Whole format.reads [] value ↔ format.RestWhole value := by
  obtain ⟨length, rest, framed, fits⟩ := opensIpcStream_iff.mp opens
  have header : format.framing.header value = some (length, rest) := framed
  rw [Framing.whole_of_header header, and_iff_right fits]
  constructor
  · rintro message _ _ found verifies
    cases framed.symm.trans found
    exact message _ (if_pos verifies)
  · intro whole body declared
    obtain ⟨verifies, own⟩ := Option.ite_none_right_eq_some.mp declared
    cases own
    exact whole length rest framed verifies

/-- The buffer for the first metadata is never larger than the value. No other buffer is larger than
what is left exactly if, in a value that passes the check, the first body and the messages behind it
are whole. -/
theorem ipc_buffers_fit_iff (floats : Floats) (library : Library) (read : Bytes → Option Value)
    (filter : CompiledFilter) (format : IpcFormat) (value : Bytes) :
    (∀ allocation ∈ (decodeArrowIpcAllocations format value).head?, allocation.Fits) ∧
    (((∀ allocation ∈ decodeArrowIpcAllocations format value, allocation.Fits) ∧
      ∀ allocation ∈ filter.matchesArrowIpcAllocations floats library read format value,
        allocation.Fits) ↔
      (opensIpcStream value = true → format.RestWhole value)) := by
  unfold decodeArrowIpcAllocations CompiledFilter.matchesArrowIpcAllocations
  by_cases opens : opensIpcStream value = true
  · simp only [opens, if_true, forall_const, Framing.fits_iff_whole (Nat.lt_succ_self _),
      ← whole_iff_restWhole opens]
    constructor
    · obtain ⟨length, rest, framed, fits⟩ := opensIpcStream_iff.mp opens
      have header : format.framing.header value = some (length, rest) := framed
      obtain ⟨more, made⟩ := Framing.allocations_of_header header value.length
      rw [made]
      rintro _ ⟨⟩
      exact fits
    · apply and_iff_left_of_imp
      exact fun whole => whole.mono fun messages both => (Bool.and_eq_true_iff.mp both).1
  · simp [opens]

/-- The metadata of a schema without fields, as Arrow encodes it. -/
def schemaMessage : Bytes :=
  [16, 0, 0, 0, 10, 0, 12, 0, 8, 0, 10, 0, 4, 0, 0, 0, 12, 0, 0, 0, 16, 0, 0, 0, 4, 0, 1, 0,
    8, 0, 8, 0, 0, 0, 4, 0, 8, 0, 0, 0, 4, 0, 0, 0, 0, 0, 0, 0]

/-- The Arrow reader, as far as it knows this message. -/
def schemaFormat : IpcFormat where
  verifies metadata := metadata == schemaMessage
  decodes messages := messages == [(schemaMessage, [])]
  batch _ := none

/-- Behind the schema stands the length of a second message that is not there. -/
theorem later_message_is_not_checked :
    headerType schemaMessage = .schema ∧
      { declared := 2147483647, left := 0 } ∈ decodeArrowIpcAllocations schemaFormat
        ([48, 0, 0, 0] ++ schemaMessage ++ [255, 255, 255, 127]) ∧
      { declared := 2147483647, left := 0 } ∈
        statusFilter.matchesArrowIpcAllocations exactFloats streamLibrary readOrder schemaFormat
          ([48, 0, 0, 0] ++ schemaMessage ++ [255, 255, 255, 127]) := by
  decide +kernel

end KrabkaGateway.Filter
