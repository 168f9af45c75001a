import KrabkaGateway.Lib.Incremental
import KrabkaGateway.Types
import Mathlib.Algebra.Ring.Nat

/-!
# The Connect client of the SDK

`connect_client.rs` of the Rust SDK: the frames of the Connect protocol and the reader
of a streaming response. The JSON of a trailer and the protobuf decoding of a message
are parameters. The receiver of the messages is there or gone, depending on what it
has got so far. `usize` has 64 bits.
-/

namespace KrabkaGateway.Connect

open Lib

structure ConnectTrailerError where
  code : String
  message : String
  deriving DecidableEq, Repr

structure EndStream where
  error : Option ConnectTrailerError
  deriving DecidableEq, Repr

/-- The errors that a reader of a stream sends. -/
inductive ConnectClientError where
  | hyper (message : String)
  | prost (message : String)
  | json (message : String)
  | connect (code message : String)
  | partialFrame (needed : Nat)
  | compressedFrame
  | unknownFrameFlags (flags : UInt8)
  deriving DecidableEq, Repr

/-! ## Envelopes -/

namespace Envelope

def messageFlags : UInt8 :=
  0x00

def endStreamFlags : UInt8 :=
  0x02

inductive Frame where
  | message (body : Bytes)
  | endStream (ended : EndStream)
  deriving DecidableEq, Repr

/-- `u32::to_be_bytes`. -/
def toBigEndian (length : Nat) : Bytes :=
  [(length / 2 ^ 24).toUInt8, (length / 2 ^ 16).toUInt8, (length / 2 ^ 8).toUInt8, length.toUInt8]

/-- `u32::from_be_bytes`. -/
def fromBigEndian (first second third fourth : UInt8) : Nat :=
  ((first.toNat * 256 + second.toNat) * 256 + third.toNat) * 256 + fourth.toNat

/-- A message whose length does not fit 32 bits panics. -/
def encode (flags : UInt8) (message : Bytes) : Option Bytes :=
  if message.length < 2 ^ 32 then some (flags :: (toBigEndian message.length ++ message)) else none

/-- `trailer` is the JSON of a trailer, if it is one. -/
def frameOf (trailer : Bytes → Except String (Option ConnectTrailerError)) (flags : UInt8)
    (body : Bytes) : Except ConnectClientError Frame :=
  if flags = messageFlags then .ok (.message body)
  else if flags = endStreamFlags then
    if body.isEmpty then .ok (.endStream { error := none })
    else
      match trailer body with
      | .ok error => .ok (.endStream { error })
      | .error message => .error (.json message)
  else if flags &&& 0x01 = 0x01 then .error .compressedFrame
  else .error (.unknownFrameFlags flags)

def decodeNext (trailer : Bytes → Except String (Option ConnectTrailerError)) :
    Bytes → Except ConnectClientError (Option (Frame × Nat))
  | flags :: first :: second :: third :: fourth :: rest =>
    let length := fromBigEndian first second third fourth
    if rest.length < length then .ok none
    else
      match frameOf trailer flags (rest.take length) with
      | .ok frame => .ok (some (frame, 5 + length))
      | .error error => .error error
  | _ => .ok none

variable {trailer : Bytes → Except String (Option ConnectTrailerError)}

theorem decodeNext_of_long {flags first second third fourth : UInt8} {rest : Bytes}
    (long : fromBigEndian first second third fourth ≤ rest.length) :
    decodeNext trailer (flags :: first :: second :: third :: fourth :: rest) =
      match frameOf trailer flags (rest.take (fromBigEndian first second third fourth)) with
      | .ok frame => .ok (some (frame, 5 + fromBigEndian first second third fourth))
      | .error error => .error error := by
  rw [decodeNext, if_neg (Nat.not_lt.mpr long)]

variable {input : Bytes}

theorem decodeNext_answered (answered : decodeNext trailer input ≠ .ok none) :
    ∃ flags first second third fourth rest,
      input = flags :: first :: second :: third :: fourth :: rest ∧
      fromBigEndian first second third fourth ≤ rest.length := by
  unfold decodeNext at answered
  split at answered
  · rename_i flags first second third fourth rest
    dsimp only at answered
    split at answered
    · exact absurd rfl answered
    · rename_i long
      exact ⟨flags, first, second, third, fourth, rest, rfl, Nat.not_lt.mp long⟩
  · exact absurd rfl answered

theorem decodeNext_append (answered : decodeNext trailer input ≠ .ok none) (more : Bytes) :
    decodeNext trailer (input ++ more) = decodeNext trailer input := by
  obtain ⟨flags, first, second, third, fourth, rest, rfl, long⟩ := decodeNext_answered answered
  have longer : fromBigEndian first second third fourth ≤ (rest ++ more).length := by
    rw [List.length_append]
    omega
  simp only [List.cons_append]
  rw [decodeNext_of_long long, decodeNext_of_long longer, List.take_append_of_le_length long]

theorem decodeNext_within {frame : Frame} {count : Nat}
    (taken : decodeNext trailer input = .ok (some (frame, count))) :
    0 < count ∧ count ≤ input.length := by
  have answered : decodeNext trailer input ≠ .ok none := by
    rw [taken]
    nofun
  obtain ⟨flags, first, second, third, fourth, rest, rfl, long⟩ := decodeNext_answered answered
  rw [decodeNext_of_long long] at taken
  split at taken
  · cases taken
    simp only [List.length_cons]
    omega
  · cases taken

variable (trailer) in
def decoder : Decoder UInt8 Frame ConnectClientError where
  next := decodeNext trailer
  next_nil := rfl
  next_within := decodeNext_within
  next_append more taken := (decodeNext_append (by rw [taken]; nofun) more).trans taken
  error_append more refused := (decodeNext_append (by rw [refused]; nofun) more).trans refused

theorem fromBigEndian_toBigEndian {length : Nat} (short : length < 2 ^ 32) :
    fromBigEndian (length / 2 ^ 24).toUInt8 (length / 2 ^ 16).toUInt8 (length / 2 ^ 8).toUInt8
      length.toUInt8 = length := by
  simp only [fromBigEndian, UInt8.toNat_ofNat']
  omega

/-- A message comes back as it was encoded, whatever follows. -/
theorem decodeNext_encode {message encoded : Bytes}
    (written : encode messageFlags message = some encoded) (more : Bytes) :
    decodeNext trailer (encoded ++ more) = .ok (some (.message message, encoded.length)) := by
  unfold encode at written
  split at written
  · rename_i short
    cases written
    have length := fromBigEndian_toBigEndian short
    simp only [toBigEndian, List.cons_append, List.nil_append]
    rw [decodeNext_of_long, length, List.take_left]
    · simp only [frameOf, if_true, List.length_cons]
      rw [Nat.add_comm]
    · rw [length, List.length_append]
      exact Nat.le_add_right _ _
  · cases written

end Envelope

/-! ## The reader of a streaming response -/

section Reader

variable {Resp : Type}

/-- What the receiver of a stream has got. -/
abbrev Sent (Resp : Type) := List (Except ConnectClientError Resp)

def send (listening : Sent Resp → Bool) (sent : Sent Resp)
    (message : Except ConnectClientError Resp) : Sent Resp × Bool :=
  if listening sent then (sent ++ [message], true) else (sent, false)

variable (decode : Bytes → Except String Resp) (listening : Sent Resp → Bool)

def sink : Sink (Sent Resp) Envelope.Frame ConnectClientError where
  accept sent
    | .message body =>
      match decode body with
      | .ok message => send listening sent (.ok message)
      | .error error => send listening sent (.error (.prost error))
    | .endStream { error := none } => (sent, false)
    | .endStream { error := some error } =>
      ((send listening sent (.error (.connect error.code error.message))).1, false)
  reject sent error := (send listening sent (.error error)).1
  cutOff sent := (send listening sent (.error (.partialFrame 1))).1

inductive BodyFrame where
  | data (bytes : Bytes)
  | trailers

variable (trailer : Bytes → Except String (Option ConnectTrailerError))

/-- The loop of `read_streaming_response`. -/
def readFrames (sent : Sent Resp) (buffer : Bytes) :
    List (Except String BodyFrame) → Sent Resp
  | [] => Decoder.finish (sink decode listening) (sent, some buffer)
  | .error error :: _ => (send listening sent (.error (.hyper error))).1
  | .ok .trailers :: frames => readFrames sent buffer frames
  | .ok (.data bytes) :: frames =>
    match (Envelope.decoder trailer).drain (sink decode listening) sent (buffer ++ bytes) with
    | (sent, none) => sent
    | (sent, some left) => readFrames sent left frames

def readStreamingResponse (body : List (Except String BodyFrame)) : Sent Resp :=
  readFrames decode listening trailer [] [] body

def BodyFrame.pieces (body : List BodyFrame) : List Bytes :=
  body.filterMap fun
    | .data bytes => some bytes
    | .trailers => none

theorem readFrames_eq_feed (sent : Sent Resp) (buffer : Bytes) (body : List BodyFrame) :
    readFrames decode listening trailer sent buffer (body.map .ok) =
      (Envelope.decoder trailer).feed (sink decode listening) sent buffer
        (BodyFrame.pieces body) := by
  induction body generalizing sent buffer with
  | nil => rfl
  | cons frame body ih =>
    cases frame with
    | trailers => exact ih sent buffer
    | data bytes =>
      rw [List.map_cons, readFrames]
      refine Eq.trans ?_ (Decoder.feed.eq_2 ..).symm
      cases (Envelope.decoder trailer).drain (sink decode listening) sent (buffer ++ bytes) with
      | mk after left =>
        cases left with
        | none => rfl
        | some left => exact ih after left

/-! ## The whole response, frame by frame -/

inductive Ending where
  | trailer (ended : EndStream)
  | broken (error : ConnectClientError)
  | left (rest : Bytes)

def framesOf (input : Bytes) : List Bytes × Ending :=
  match taken : Envelope.decodeNext trailer input with
  | .error error => ([], .broken error)
  | .ok none => ([], .left input)
  | .ok (some (.endStream ended, _)) => ([], .trailer ended)
  | .ok (some (.message body, count)) =>
    have := Envelope.decodeNext_within taken
    let later := framesOf (input.drop count)
    (body :: later.1, later.2)
termination_by input.length
decreasing_by
  rw [List.length_drop]
  omega

def decoded (body : Bytes) : Except ConnectClientError Resp :=
  match decode body with
  | .ok message => .ok message
  | .error error => .error (.prost error)

/-- What an ending tells the receiver. -/
def Ending.messages : Ending → Sent Resp
  | .trailer { error := none } => []
  | .trailer { error := some error } => [.error (.connect error.code error.message)]
  | .broken error => [.error error]
  | .left [] => []
  | .left (_ :: _) => [.error (.partialFrame 1)]

/-- What a receiver gets of a response. -/
def messagesOf (input : Bytes) : Sent Resp :=
  (framesOf trailer input).1.map (decoded decode) ++ (framesOf trailer input).2.messages

variable {decode trailer}

variable {input : Bytes} {count : Nat}

theorem framesOf_of_frame {body : Bytes}
    (taken : Envelope.decodeNext trailer input = .ok (some (.message body, count))) :
    framesOf trailer input =
      (body :: (framesOf trailer (input.drop count)).1,
        (framesOf trailer (input.drop count)).2) := by
  rw [framesOf]
  split <;> simp_all

variable {ended : EndStream}

theorem framesOf_of_endStream
    (taken : Envelope.decodeNext trailer input = .ok (some (.endStream ended, count))) :
    framesOf trailer input = ([], .trailer ended) := by
  rw [framesOf]
  split <;> simp_all

theorem framesOf_of_none (incomplete : Envelope.decodeNext trailer input = .ok none) :
    framesOf trailer input = ([], .left input) := by
  rw [framesOf]
  split <;> simp_all

theorem framesOf_of_error {error : ConnectClientError}
    (refused : Envelope.decodeNext trailer input = .error error) :
    framesOf trailer input = ([], .broken error) := by
  rw [framesOf]
  split <;> simp_all

theorem readWhole_eq (sent : Sent Resp) (input : Bytes) :
    (Envelope.decoder trailer).readWhole (sink decode fun _ => true) sent input =
      sent ++ messagesOf decode trailer input := by
  unfold Decoder.readWhole messagesOf
  induction input using framesOf.induct trailer generalizing sent with
  | case1 input error refused =>
    rw [Decoder.drain_of_error refused, framesOf_of_error refused]
    rfl
  | case2 input incomplete =>
    rw [Decoder.drain_of_none incomplete, framesOf_of_none incomplete]
    cases input with
    | nil => exact (List.append_nil sent).symm
    | cons byte rest => rfl
  | case3 input ended count taken =>
    rw [Decoder.drain_of_frame taken, framesOf_of_endStream taken]
    obtain ⟨error⟩ := ended
    cases error with
    | none => exact (List.append_nil sent).symm
    | some error => rfl
  | case4 input body count taken _ ih =>
    rw [Decoder.drain_of_frame taken, framesOf_of_frame taken]
    have accepted : (sink decode fun _ => true).accept sent (.message body) =
        (sent ++ [decoded decode body], true) := by
      simp only [sink, decoded]
      cases decode body <;> rfl
    rw [accepted]
    dsimp only
    rw [ih, List.map_cons, List.append_assoc, List.cons_append, List.nil_append,
      List.cons_append]

variable {bodies : List Bytes}

theorem framesOf_append_of_trailer (closed : framesOf trailer input = (bodies, .trailer ended))
    (more : Bytes) : framesOf trailer (input ++ more) = (bodies, .trailer ended) := by
  induction input using framesOf.induct trailer generalizing bodies with
  | case1 input error refused =>
    rw [framesOf_of_error refused] at closed
    cases closed
  | case2 input incomplete =>
    rw [framesOf_of_none incomplete] at closed
    cases closed
  | case3 input last count taken =>
    rw [framesOf_of_endStream taken] at closed
    cases closed
    exact framesOf_of_endStream ((Envelope.decoder trailer).next_append more taken)
  | case4 input body count taken _ ih =>
    have within := Envelope.decodeNext_within taken
    rw [framesOf_of_frame taken] at closed
    cases later : framesOf trailer (input.drop count) with
    | mk others ending =>
      rw [later] at closed
      cases closed
      rw [framesOf_of_frame ((Envelope.decoder trailer).next_append more taken),
        List.drop_append_of_le_length within.2, ih later]

/-- However a response is cut, a receiver that stays gets what its bytes tell. -/
theorem readStreamingResponse_eq (decode : Bytes → Except String Resp)
    (trailer : Bytes → Except String (Option ConnectTrailerError)) (body : List BodyFrame) :
    readStreamingResponse decode (fun _ => true) trailer (body.map .ok) =
      messagesOf decode trailer (BodyFrame.pieces body).flatten := by
  rw [readStreamingResponse, readFrames_eq_feed,
    Decoder.feed_eq_readWhole (Envelope.decoder trailer).next_nil, readWhole_eq]
  rfl

/-- However the bytes of a response are cut into pieces, a receiver that stays gets the messages of
its frames up to a trailer or a frame that is none, and an error if bytes are left; an encoded
message comes back unchanged; and nothing behind a trailer counts. -/
theorem streaming_does_not_depend_on_pieces (decode : Bytes → Except String Resp)
    (trailer : Bytes → Except String (Option ConnectTrailerError)) :
    (∀ body : List BodyFrame,
      readStreamingResponse decode (fun _ => true) trailer (body.map .ok) =
        messagesOf decode trailer (BodyFrame.pieces body).flatten) ∧
    (∀ message encoded more, Envelope.encode Envelope.messageFlags message = some encoded →
      Envelope.decodeNext trailer (encoded ++ more) =
          .ok (some (.message message, encoded.length)) ∧
        messagesOf decode trailer (encoded ++ more) =
          decoded decode message :: messagesOf decode trailer more) ∧
    ∀ input bodies ended more, framesOf trailer input = (bodies, .trailer ended) →
      messagesOf decode trailer (input ++ more) = messagesOf decode trailer input := by
  refine ⟨readStreamingResponse_eq decode trailer, fun message encoded more written => ?_,
    fun input bodies ended more closed => ?_⟩
  · have taken : Envelope.decodeNext trailer (encoded ++ more) = _ :=
      Envelope.decodeNext_encode written more
    refine ⟨taken, ?_⟩
    rw [messagesOf, framesOf_of_frame taken, List.drop_left]
    rfl
  · rw [messagesOf, messagesOf, framesOf_append_of_trailer closed, closed]

/-! ## The end of a stream -/

def EndsWithoutError (received : Sent Resp) : Prop :=
  ∀ last ∈ received.getLast?, last.isOk = true

theorem isOk_decoded (decode : Bytes → Except String Resp) (body : Bytes) :
    (decoded decode body).isOk = (decode body).isOk := by
  unfold decoded
  cases decode body <;> rfl

theorem endsWithoutError_map_decoded (bodies : List Bytes) :
    EndsWithoutError (bodies.map (decoded decode)) ↔
      ∀ last ∈ bodies.getLast?, (decode last).isOk = true := by
  rw [EndsWithoutError, List.getLast?_map]
  cases bodies.getLast? with
  | none => simp
  | some last => simp [isOk_decoded]

theorem not_endsWithoutError_append_error (received : Sent Resp) (error : ConnectClientError) :
    ¬ EndsWithoutError (received ++ [.error error]) := by
  intro ends
  exact absurd (ends _ List.getLast?_concat) Bool.false_ne_true

/-- A receiver sees no error at the end exactly if the response has a trailer without one, or stops
between two frames, and the last message could be decoded. -/
theorem endsWithoutError_messagesOf_iff {ending : Ending}
    (frames : framesOf trailer input = (bodies, ending)) :
    EndsWithoutError (messagesOf decode trailer input) ↔
      (ending = .trailer { error := none } ∨ ending = .left []) ∧
        ∀ last ∈ bodies.getLast?, (decode last).isOk = true := by
  rw [messagesOf, frames]
  match ending with
  | .trailer { error := none } | .left [] =>
    rw [Ending.messages, List.append_nil, endsWithoutError_map_decoded]
    simp
  | .trailer { error := some _ } | .broken _ | .left (_ :: _) =>
    simp [Ending.messages, not_endsWithoutError_append_error]

/-- However a response is cut into pieces, no error at its end means a trailer without one, unless
the response stops between two frames and the last of its messages could be decoded. -/
theorem end_without_error_means_trailer_iff (decode : Bytes → Except String Resp)
    (trailer : Bytes → Except String (Option ConnectTrailerError)) (body : List BodyFrame) :
    (EndsWithoutError (readStreamingResponse decode (fun _ => true) trailer (body.map .ok)) →
      (framesOf trailer (BodyFrame.pieces body).flatten).2 = .trailer { error := none }) ↔
    ¬ ((framesOf trailer (BodyFrame.pieces body).flatten).2 = .left [] ∧
      ∀ last ∈ (framesOf trailer (BodyFrame.pieces body).flatten).1.getLast?,
        (decode last).isOk = true) := by
  rw [readStreamingResponse_eq, endsWithoutError_messagesOf_iff rfl]
  constructor
  · rintro means ⟨boundary, decodes⟩
    rw [means ⟨Or.inr boundary, decodes⟩] at boundary
    cases boundary
  · rintro inside ⟨trailed | boundary, decodes⟩
    · exact trailed
    · exact absurd ⟨boundary, decodes⟩ inside

/-- One complete message, and then the peer is gone. -/
def cutOffResponse : List BodyFrame :=
  [.data [0, 0, 0, 0, 1, 7]]

theorem framesOf_cutOffResponse :
    framesOf (fun _ => .ok none) (BodyFrame.pieces cutOffResponse).flatten = ([[7]], .left []) := by
  have written : Envelope.encode Envelope.messageFlags [7] = some [0, 0, 0, 0, 1, 7] := by decide
  rw [show (BodyFrame.pieces cutOffResponse).flatten = [0, 0, 0, 0, 1, 7] ++ [] from rfl,
    framesOf_of_frame (Envelope.decodeNext_encode written []), List.drop_left, framesOf_of_none rfl]

theorem cut_off_response_ends_without_error :
    ¬ (EndsWithoutError (readStreamingResponse (Except.ok : Bytes → Except String Bytes)
        (fun _ => true) (fun _ => .ok none) (cutOffResponse.map .ok)) →
      (framesOf (fun _ => .ok none) (BodyFrame.pieces cutOffResponse).flatten).2 =
        .trailer { error := none }) := by
  rw [readStreamingResponse_eq, endsWithoutError_messagesOf_iff framesOf_cutOffResponse,
    framesOf_cutOffResponse]
  intro means
  cases means ⟨Or.inr rfl, fun _ _ => rfl⟩

end Reader

end KrabkaGateway.Connect
