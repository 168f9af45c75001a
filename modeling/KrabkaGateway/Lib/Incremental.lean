import Mathlib.Data.List.Basic
import Mathlib.Tactic.Common

/-!
# Reading frames from a stream that comes in pieces

A decoder takes the first frame from the front of a buffer, or asks for more. Its
answer, once it has one, does not change when more bytes follow. A reader puts the
pieces of a stream into a buffer, takes out frames as long as there are any, and hands
them to a sink, which may end the reading. What the sink sees does not depend on how
the stream was cut.
-/

namespace Lib

/-- The first frame of a buffer and how many bytes it takes; none while it is not complete. -/
structure Decoder (Byte Frame Error : Type) where
  next : List Byte → Except Error (Option (Frame × Nat))
  next_nil : next [] = .ok none
  next_within {input : List Byte} {frame : Frame} {count : Nat} :
    next input = .ok (some (frame, count)) → 0 < count ∧ count ≤ input.length
  next_append {input : List Byte} {frame : Frame} {count : Nat} (more : List Byte) :
    next input = .ok (some (frame, count)) → next (input ++ more) = .ok (some (frame, count))
  error_append {input : List Byte} {error : Error} (more : List Byte) :
    next input = .error error → next (input ++ more) = .error error

/-- Where the frames go. `accept` says whether reading goes on. -/
structure Sink (State Frame Error : Type) where
  accept : State → Frame → State × Bool
  reject : State → Error → State
  /-- The stream ended inside a frame. -/
  cutOff : State → State

namespace Decoder

variable {Byte Frame Error State : Type}
variable (decoder : Decoder Byte Frame Error) (sink : Sink State Frame Error)

/-- Take frames from the buffer until it has no complete one, or the reading ends; what is left of
the buffer in the first case. -/
def drain (state : State) (buffer : List Byte) : State × Option (List Byte) :=
  match taken : decoder.next buffer with
  | .error error => (sink.reject state error, none)
  | .ok none => (state, some buffer)
  | .ok (some (frame, count)) =>
    have := decoder.next_within taken
    match sink.accept state frame with
    | (state, true) => drain state (buffer.drop count)
    | (state, false) => (state, none)
termination_by buffer.length
decreasing_by
  rw [List.length_drop]
  omega

/-- The end of the stream. -/
def finish : State × Option (List Byte) → State
  | (state, none) => state
  | (state, some []) => state
  | (state, some (_ :: _)) => sink.cutOff state

/-- Read the pieces one after another. -/
def feed (state : State) (buffer : List Byte) : List (List Byte) → State
  | [] => finish sink (state, some buffer)
  | piece :: pieces =>
    match decoder.drain sink state (buffer ++ piece) with
    | (state, none) => state
    | (state, some left) => feed state left pieces

/-- Read the stream in one piece. -/
def readWhole (state : State) (input : List Byte) : State :=
  finish sink (decoder.drain sink state input)

variable {decoder sink}

variable {state : State} {buffer : List Byte}

theorem drain_of_error {error : Error} (refused : decoder.next buffer = .error error) :
    decoder.drain sink state buffer = (sink.reject state error, none) := by
  rw [drain]
  split <;> simp_all

theorem drain_of_none (incomplete : decoder.next buffer = .ok none) :
    decoder.drain sink state buffer = (state, some buffer) := by
  rw [drain]
  split <;> simp_all

theorem drain_of_frame {frame : Frame} {count : Nat}
    (taken : decoder.next buffer = .ok (some (frame, count))) :
    decoder.drain sink state buffer =
      match sink.accept state frame with
      | (state, true) => decoder.drain sink state (buffer.drop count)
      | (state, false) => (state, none) := by
  rw [drain]
  split
  · simp_all
  · simp_all
  · rename_i found
    rw [taken] at found
    cases found
    rfl

theorem drain_append (state : State) (buffer more : List Byte) :
    decoder.drain sink state (buffer ++ more) =
      match decoder.drain sink state buffer with
      | (state, none) => (state, none)
      | (state, some left) => decoder.drain sink state (left ++ more) := by
  induction state, buffer using drain.induct decoder sink with
  | case1 state buffer error refused =>
    rw [drain_of_error refused, drain_of_error (decoder.error_append more refused)]
  | case2 state buffer incomplete => rw [drain_of_none incomplete]
  | case3 state buffer frame count taken _ next accepted ih =>
    have within := decoder.next_within taken
    rw [drain_of_frame taken, drain_of_frame (decoder.next_append more taken), accepted]
    dsimp only
    rw [List.drop_append_of_le_length within.2, ih]
  | case4 state buffer frame count taken _ next ended =>
    rw [drain_of_frame taken, drain_of_frame (decoder.next_append more taken), ended]

theorem next_of_drain {final : State} {left : List Byte}
    (drained : decoder.drain sink state buffer = (final, some left)) :
    decoder.next left = .ok none := by
  induction state, buffer using drain.induct decoder sink with
  | case1 state buffer error refused =>
    rw [drain_of_error refused] at drained
    cases drained
  | case2 state buffer incomplete =>
    rw [drain_of_none incomplete] at drained
    cases drained
    exact incomplete
  | case3 state buffer frame count taken _ next accepted ih =>
    rw [drain_of_frame taken, accepted] at drained
    exact ih drained
  | case4 state buffer frame count taken _ next ended =>
    rw [drain_of_frame taken, ended] at drained
    cases drained

theorem feed_eq_readWhole (incomplete : decoder.next buffer = .ok none)
    (pieces : List (List Byte)) :
    decoder.feed sink state buffer pieces =
      decoder.readWhole sink state (buffer ++ pieces.flatten) := by
  induction pieces generalizing state buffer with
  | nil => rw [feed, List.flatten_nil, List.append_nil, readWhole, drain_of_none incomplete]
  | cons piece pieces ih =>
    rw [feed, List.flatten_cons, ← List.append_assoc, readWhole,
      drain_append state (buffer ++ piece)]
    cases drained : decoder.drain sink state (buffer ++ piece) with
    | mk after left =>
      cases left with
      | none => rfl
      | some left => exact ih (next_of_drain drained)

end Decoder

end Lib
