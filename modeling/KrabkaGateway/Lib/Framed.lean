import Mathlib.Data.List.Basic
import Mathlib.Tactic.Common

/-!
# Framed messages

A stream of messages: a header that declares the length of the metadata, the
metadata, which declares the length of the body, and the body. A reader makes a
buffer of the declared length before it reads each of the two. Its buffers are never
larger than what is left exactly if the stream is one of whole messages, as far as
it is read.
-/

namespace Lib

variable {Byte : Type}

structure Framing (Byte : Type) where
  /-- The length of the metadata that is next, and what follows the header. -/
  header : List Byte → Option (Nat × List Byte)
  /-- The length of the body that metadata declares, if it can be read. -/
  body : List Byte → Option Nat
  shorter {bytes : List Byte} {length : Nat} {rest : List Byte}
    (found : header bytes = some (length, rest)) : rest.length < bytes.length

/-- A buffer: the length that is declared for it, and the number of bytes that are left. -/
structure Allocation where
  declared : Nat
  left : Nat
  deriving DecidableEq, Repr

def Allocation.Fits (allocation : Allocation) : Prop :=
  allocation.declared ≤ allocation.left

namespace Framing

variable (framing : Framing Byte) (goesOn : List (List Byte × List Byte) → Bool)

def readMessage (rest : List Byte) :
    List Allocation × Option ((List Byte × List Byte) × List Byte) :=
  match framing.header rest with
  | none => ([], none)
  | some (length, rest) =>
    let forMetadata : Allocation := { declared := length, left := rest.length }
    if rest.length < length then ([forMetadata], none)
    else
      match framing.body (rest.take length) with
      | none => ([forMetadata], none)
      | some bodyLength =>
        let message := rest.take length
        let rest := rest.drop length
        let forBody : Allocation := { declared := bodyLength, left := rest.length }
        if rest.length < bodyLength then ([forMetadata, forBody], none)
        else ([forMetadata, forBody], some ((message, rest.take bodyLength), rest.drop bodyLength))

/-- The buffers of a reader that goes on after the messages so far. Every message takes bytes, so
that more `fuel` than there are bytes is enough. -/
def allocations : Nat → List (List Byte × List Byte) → List Byte → List Allocation
  | 0, _, _ => []
  | fuel + 1, messages, rest =>
    let (made, found) := framing.readMessage rest
    match found with
    | none => made
    | some (message, rest) =>
      if goesOn (messages ++ [message]) then made ++ allocations fuel (messages ++ [message]) rest
      else made

inductive Whole : List (List Byte × List Byte) → List Byte → Prop where
  | stop {messages : List (List Byte × List Byte)} {bytes : List Byte}
      (ends : framing.header bytes = none) : Whole messages bytes
  | unreadable {messages : List (List Byte × List Byte)} {bytes metadata rest : List Byte}
      (framed : framing.header bytes = some (metadata.length, metadata ++ rest))
      (unread : framing.body metadata = none) : Whole messages bytes
  | message {messages : List (List Byte × List Byte)} {bytes metadata body rest : List Byte}
      (framed : framing.header bytes = some (metadata.length, metadata ++ (body ++ rest)))
      (declared : framing.body metadata = some body.length)
      (later : goesOn (messages ++ [(metadata, body)]) = true →
        Whole (messages ++ [(metadata, body)]) rest) : Whole messages bytes

variable {framing goesOn}

variable {messages : List (List Byte × List Byte)} {bytes : List Byte}

/-- A reader that stops sooner finds whole messages as well. -/
theorem Whole.mono {sooner : List (List Byte × List Byte) → Bool}
    (less : ∀ messages, sooner messages = true → goesOn messages = true)
    (whole : framing.Whole goesOn messages bytes) : framing.Whole sooner messages bytes := by
  induction whole with
  | stop ends => exact .stop ends
  | unreadable framed unread => exact .unreadable framed unread
  | message framed declared _ ih =>
    exact .message framed declared fun more => ih (less _ more)

variable {length : Nat}

theorem whole_of_header {rest : List Byte} (framed : framing.header bytes = some (length, rest)) :
    framing.Whole goesOn messages bytes ↔
      length ≤ rest.length ∧ ∀ bodyLength, framing.body (rest.take length) = some bodyLength →
        bodyLength ≤ (rest.drop length).length ∧
        (goesOn (messages ++ [(rest.take length, (rest.drop length).take bodyLength)]) = true →
          framing.Whole goesOn
            (messages ++ [(rest.take length, (rest.drop length).take bodyLength)])
            ((rest.drop length).drop bodyLength)) := by
  constructor
  · rintro (ends | ⟨own, unread⟩ | ⟨own, declared, later⟩)
    · cases framed.symm.trans ends
    · cases framed.symm.trans own
      simp [unread]
    · cases framed.symm.trans own
      simp only [List.take_left, List.drop_left, declared]
      refine ⟨by simp, ?_⟩
      rintro _ ⟨⟩
      simpa using later
  · rintro ⟨fits, message⟩
    have parts := List.take_append_drop length rest
    have exact := List.length_take_of_le fits
    cases declared : framing.body (rest.take length) with
    | none =>
      have whole : framing.header bytes =
          some ((rest.take length).length, rest.take length ++ rest.drop length) := by
        rw [exact, parts, framed]
      exact .unreadable whole declared
    | some bodyLength =>
      obtain ⟨bodyFits, later⟩ := message bodyLength declared
      have bodyParts := List.take_append_drop bodyLength (rest.drop length)
      refine .message ?_ ?_ later
      · rw [exact, bodyParts, parts, framed]
      · rw [List.length_take_of_le bodyFits, declared]

theorem readMessage_of_header {rest : List Byte}
    (framed : framing.header bytes = some (length, rest)) :
    framing.readMessage bytes =
      if rest.length < length then ([⟨length, rest.length⟩], none)
      else
        match framing.body (rest.take length) with
        | none => ([⟨length, rest.length⟩], none)
        | some bodyLength =>
          if (rest.drop length).length < bodyLength then
            ([⟨length, rest.length⟩, ⟨bodyLength, (rest.drop length).length⟩], none)
          else
            ([⟨length, rest.length⟩, ⟨bodyLength, (rest.drop length).length⟩],
              some ((rest.take length, (rest.drop length).take bodyLength),
                (rest.drop length).drop bodyLength)) := by
  rw [readMessage, framed]

/-- The first buffer is the one for the metadata of the first message. -/
theorem allocations_of_header {rest : List Byte}
    (framed : framing.header bytes = some (length, rest)) (fuel : Nat) :
    ∃ more, framing.allocations goesOn (fuel + 1) messages bytes =
      ⟨length, rest.length⟩ :: more := by
  rw [allocations, readMessage_of_header framed]
  by_cases short : rest.length < length
  · simp [short]
  · rw [if_neg short]
    cases framing.body (rest.take length) with
    | none => simp
    | some bodyLength =>
      by_cases cut : (rest.drop length).length < bodyLength
      · simp only [if_pos cut]
        exact ⟨_, rfl⟩
      · simp only [if_neg cut]
        split <;> exact ⟨_, rfl⟩

theorem fits_iff_whole {fuel : Nat} (enough : bytes.length < fuel) :
    (∀ allocation ∈ framing.allocations goesOn fuel messages bytes, allocation.Fits) ↔
      framing.Whole goesOn messages bytes := by
  induction fuel generalizing messages bytes with
  | zero => exact absurd enough (Nat.not_lt_zero _)
  | succ fuel ih =>
    rw [allocations]
    cases framed : framing.header bytes with
    | none =>
      have made : framing.readMessage bytes = ([], none) := by rw [readMessage, framed]
      simp only [made]
      exact iff_of_true (fun _ member => absurd member List.not_mem_nil) (.stop framed)
    | some found =>
      obtain ⟨length, rest⟩ := found
      have shorter := framing.shorter framed
      rw [whole_of_header framed, readMessage_of_header framed]
      by_cases fits : length ≤ rest.length
      · rw [if_neg (Nat.not_lt.mpr fits)]
        cases declared : framing.body (rest.take length) with
        | none => simp [fits, Allocation.Fits]
        | some bodyLength =>
          dsimp only
          have dropped : (rest.drop length).length ≤ rest.length := by simp
          generalize rest.drop length = after at dropped
          by_cases bodyFits : bodyLength ≤ after.length
          · rw [if_neg (Nat.not_lt.mpr bodyFits)]
            have fewer : (after.drop bodyLength).length < fuel := by
              rw [List.length_drop]
              omega
            by_cases more :
                goesOn (messages ++ [(rest.take length, after.take bodyLength)]) = true
            · simp only [if_pos more, List.forall_mem_append, ih fewer]
              simp [fits, bodyFits, more, Allocation.Fits]
            · simp [fits, bodyFits, more, Allocation.Fits]
          · rw [if_pos (Nat.not_le.mp bodyFits)]
            simp [bodyFits, Allocation.Fits]
      · rw [if_pos (Nat.not_le.mp fits)]
        simp [fits, Allocation.Fits]

end Framing

end Lib
