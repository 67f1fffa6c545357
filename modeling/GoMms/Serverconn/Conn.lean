import GoMms.Codec.Envelope
import GoMms.Iso.Stack

/-!
# The request loop of a server connection

`internal/serverconn`: `Serve` receives a frame, decides what it is, and answers it before it
receives the next one. `frameAction` is the part of a pass that depends on the frame alone,
`confirmedReply` the part that turns a handler's result into a PDU, and `serve` the loop over a
transport whose sends succeed.

The main result says what each frame makes the loop send and which frames reach the handler.
-/

namespace GoMms.Serverconn

open Codec Berutil

universe u

/-- The negotiated parameter the loop reads. -/
structure MMSOptions where
  maxPDUSize : Int64
  deriving DecidableEq, Repr

/-- `MaxPDUSize > 0 && len(data) > MaxPDUSize`. -/
def MMSOptions.exceededBy (opts : MMSOptions) (data : Octets) : Bool :=
  decide (opts.maxPDUSize > 0) && decide ((data.length : Int) > opts.maxPDUSize.toInt)

/-- The arguments of one `ServiceHandler` call. -/
structure Call where
  invokeID : UInt32
  serviceTag : Nat
  serviceBody : Octets
  deriving DecidableEq, Repr

/-- What a `ServiceHandler` returns: a response, a `*ServiceError`, or any other error. -/
inductive HandlerResult where
  | response (respTag : Int64) (constructed : Bool) (respPayload : Octets)
  | serviceError (errorClass errorCode : Int64)
  | failure (text : String)
  deriving DecidableEq, Repr

/-- What the loop does with a frame. -/
inductive FrameAction where
  | fail (text : String)
  | release
  | conclude
  | skip
  | reply (pdu : Octets)
  | request (call : Call)
  deriving DecidableEq, Repr

/-- `handleConfirmedRequest` up to the handler call. -/
def handleConfirmedRequest (content : Octets) : FrameAction :=
  match unmarshalConfirmedRequest content with
  | .error _ => .reply (marshalRejectPDU 0 1 0)
  | .ok (invokeID, serviceRaw) => .request ⟨invokeID, serviceRaw.tag, serviceRaw.bytes⟩

/-- `handleConfirmedRequest` after the handler call: the PDU it sends. -/
def confirmedReply (opts : MMSOptions) (invokeID : UInt32) : HandlerResult → Octets
  | .serviceError errorClass errorCode => marshalConfirmedError invokeID errorClass errorCode
  | .failure _ => marshalConfirmedError invokeID 7 1
  | .response respTag constructed respPayload =>
    let respPdu := marshalConfirmedResponse invokeID respTag constructed respPayload
    if opts.exceededBy respPdu then marshalConfirmedError invokeID 3 0 else respPdu

def handleCancelRequest (content : Octets) : FrameAction :=
  match decodeUnsigned content with
  | .error _ => .skip
  | .ok invokeID => .reply (marshalCancelError invokeID 10 1)

/-- The `switch` on the kind of a decoded PDU. -/
def dispatch (kind : PduKind) (content : Octets) : FrameAction :=
  match kind with
  | .concludeRequest => .conclude
  | .confirmedRequest => handleConfirmedRequest content
  | .cancelRequest => handleCancelRequest content
  | _ => .skip

/-- The MMS PDU in a received frame; `none` for a PDU that is oversized or malformed, which the
loop skips. -/
def receivePdu (opts : MMSOptions) (data : Octets) : Except String (Option (PduKind × Octets)) :=
  match Isostack.decodeDataResponse data with
  | .error text => .error text
  | .ok mmsPayload =>
    if opts.exceededBy mmsPayload then .ok none
    else
      match decodePdu mmsPayload with
      | .error _ => .ok none
      | .ok pdu => .ok (some pdu)

/-- One pass of `Serve` over a received frame, up to the handler call. -/
def frameAction (opts : MMSOptions) (data : Octets) : FrameAction :=
  match receivePdu opts data with
  | .error text =>
    match Isostack.decodeReleaseRequest data with
    | .ok () => .release
    | .error _ => .fail ("serverconn: decode data: " ++ text)
  | .ok none => .skip
  | .ok (some (kind, content)) => dispatch kind content

/-- A connection as the loop leaves it: the handler's own state, the octets handed to the
transport and the handler calls made, both oldest first. -/
structure Conn (σ : Type u) where
  handlerState : σ
  sent : List Octets := []
  calls : List Call := []

namespace Conn

variable {σ : Type u}

def send (conn : Conn σ) (data : Octets) : Conn σ := { conn with sent := conn.sent ++ [data] }

def sendData (conn : Conn σ) (mmsPdu : Octets) : Conn σ :=
  conn.send (Isostack.encodeDataRequest mmsPdu)

/-- Call the handler and send the reply to what it returned. -/
def answer (opts : MMSOptions) (handler : σ → Call → HandlerResult × σ) (conn : Conn σ)
    (call : Call) : Conn σ :=
  let (result, handlerState) := handler conn.handlerState call
  { conn with handlerState := handlerState, calls := conn.calls ++ [call] }.sendData
    (confirmedReply opts call.invokeID result)

/-- `Serve` over the frames the transport delivers; after the last one `Receive` fails with
`receiveError`. -/
def serve (opts : MMSOptions) (handler : σ → Call → HandlerResult × σ) (receiveError : String) :
    Conn σ → List Octets → Conn σ × Except String Unit
  | conn, [] => (conn, .error ("serverconn: receive: " ++ receiveError))
  | conn, data :: frames =>
    match frameAction opts data with
    | .fail text => (conn, .error text)
    | .release => (conn.send Isostack.encodeReleaseResponse, .ok ())
    | .conclude => (conn.sendData marshalConcludeResponse, .ok ())
    | .skip => serve opts handler receiveError conn frames
    | .reply pdu => serve opts handler receiveError (conn.sendData pdu) frames
    | .request call => serve opts handler receiveError (conn.answer opts handler call) frames

end Conn

/-! ## What a frame asks for -/

section Frames

variable {opts : MMSOptions} {frame content : Octets} {kind : PduKind}

/-- The frame holds an MMS PDU of this kind within the negotiated size. -/
def InSize (opts : MMSOptions) (frame : Octets) (kind : PduKind) (content : Octets) : Prop :=
  receivePdu opts frame = .ok (some (kind, content))

/-- The frame ends the loop: it is not a data frame, or it asks to conclude. -/
def endsLoop (opts : MMSOptions) (frame : Octets) : Bool :=
  match receivePdu opts frame with
  | .error _ => true
  | .ok (some (.concludeRequest, _)) => true
  | .ok _ => false

/-- The handler call a frame asks for: an in-size confirmed request whose envelope decodes. -/
def decodedRequest (opts : MMSOptions) (frame : Octets) : Option Call :=
  match receivePdu opts frame with
  | .ok (some (.confirmedRequest, content)) =>
    match unmarshalConfirmedRequest content with
    | .ok (invokeID, service) => some ⟨invokeID, service.tag, service.bytes⟩
    | .error _ => none
  | _ => none

/-- What a frame that does not end the loop makes it send. -/
structure Answers (opts : MMSOptions) (frame : Octets) (pdus : List Octets) : Prop where
  confirmed : ∀ content invokeID service, InSize opts frame .confirmedRequest content →
    unmarshalConfirmedRequest content = .ok (invokeID, service) →
      ∃ pdu, pdus = [pdu] ∧ (Carries 1 invokeID pdu ∨ Carries 2 invokeID pdu)
  malformed : ∀ content text, InSize opts frame .confirmedRequest content →
    unmarshalConfirmedRequest content = .error text → pdus = [marshalRejectPDU 0 1 0]
  cancel : ∀ content invokeID, InSize opts frame .cancelRequest content →
    decodeUnsigned content = .ok invokeID →
      pdus = [marshalCancelError invokeID 10 1] ∧
        Carries 7 invokeID (marshalCancelError invokeID 10 1)
  other : (∀ content, ¬ InSize opts frame .confirmedRequest content) →
    (∀ content invokeID, InSize opts frame .cancelRequest content →
      decodeUnsigned content ≠ .ok invokeID) → pdus = []

/-- The reply to a handled request is a confirmed response or error with its invoke ID, also
when the response had to be replaced. -/
theorem carries_confirmedReply (opts : MMSOptions) (invokeID : UInt32) (result : HandlerResult) :
    Carries 1 invokeID (confirmedReply opts invokeID result) ∨
      Carries 2 invokeID (confirmedReply opts invokeID result) := by
  cases result with
  | serviceError | failure => exact .inr (carries_confirmedError ..)
  | response respTag constructed respPayload =>
    simp only [confirmedReply]
    split
    · exact .inr (carries_confirmedError ..)
    · exact .inl (carries_confirmedResponse ..)

theorem InSize.unique {kind' : PduKind} {content' : Octets}
    (first : InSize opts frame kind content) (second : InSize opts frame kind' content') :
    kind = kind' ∧ content = content' := by
  rw [InSize] at first second
  rw [first] at second
  simpa using second

theorem answers_nothing (noConfirmed : ∀ content, ¬ InSize opts frame .confirmedRequest content)
    (noCancel : ∀ content invokeID, InSize opts frame .cancelRequest content →
      decodeUnsigned content ≠ .ok invokeID) : Answers opts frame [] where
  confirmed content _ _ inSize := (noConfirmed content inSize).elim
  malformed content _ inSize := (noConfirmed content inSize).elim
  cancel content invokeID inSize decoded := (noCancel content invokeID inSize decoded).elim
  other _ _ := rfl

theorem answers_confirmed {invokeID : UInt32} {service : Asn1.RawValue} {pdu : Octets}
    (inSize : InSize opts frame .confirmedRequest content)
    (envelope : unmarshalConfirmedRequest content = .ok (invokeID, service))
    (carries : Carries 1 invokeID pdu ∨ Carries 2 invokeID pdu) : Answers opts frame [pdu] where
  confirmed content' invokeID' service' inSize' envelope' := by
    obtain ⟨-, rfl⟩ := inSize.unique inSize'
    obtain ⟨rfl, rfl⟩ : invokeID = invokeID' ∧ service = service' := by
      simpa [envelope] using envelope'
    exact ⟨pdu, rfl, carries⟩
  malformed content' text inSize' refused := by
    obtain ⟨-, rfl⟩ := inSize.unique inSize'
    exact nomatch envelope.symm.trans refused
  cancel content' _ inSize' _ := nomatch (inSize.unique inSize').1
  other none _ := (none content inSize).elim

theorem answers_malformed {text : String} (inSize : InSize opts frame .confirmedRequest content)
    (refused : unmarshalConfirmedRequest content = .error text) :
    Answers opts frame [marshalRejectPDU 0 1 0] where
  confirmed content' invokeID service inSize' envelope := by
    obtain ⟨-, rfl⟩ := inSize.unique inSize'
    exact nomatch envelope.symm.trans refused
  malformed _ _ _ _ := rfl
  cancel content' _ inSize' _ := nomatch (inSize.unique inSize').1
  other none _ := (none content inSize).elim

theorem answers_cancel {invokeID : UInt32} (inSize : InSize opts frame .cancelRequest content)
    (decoded : decodeUnsigned content = .ok invokeID) :
    Answers opts frame [marshalCancelError invokeID 10 1] where
  confirmed content' _ _ inSize' _ := nomatch (inSize.unique inSize').1
  malformed content' _ inSize' _ := nomatch (inSize.unique inSize').1
  cancel content' invokeID' inSize' decoded' := by
    obtain ⟨-, rfl⟩ := inSize.unique inSize'
    obtain rfl : invokeID = invokeID' := by simpa [decoded] using decoded'
    exact ⟨rfl, carries_cancelError invokeID 10 1⟩
  other _ none := (none content invokeID inSize decoded).elim

/-- A frame that does not end the loop is skipped, answered at once, or handed to the handler,
and the answer is right in each case. -/
theorem continues_cases (continues : endsLoop opts frame = false) :
    (frameAction opts frame = .skip ∧ decodedRequest opts frame = none ∧
        Answers opts frame []) ∨
      (∃ pdu, frameAction opts frame = .reply pdu ∧ decodedRequest opts frame = none ∧
        Answers opts frame [pdu]) ∨
      ∃ call, frameAction opts frame = .request call ∧ decodedRequest opts frame = some call ∧
        ∀ result, Answers opts frame [confirmedReply opts call.invokeID result] := by
  match received : receivePdu opts frame with
  | .error text => simp [endsLoop, received] at continues
  | .ok none =>
    refine .inl ⟨by simp only [frameAction, received], by simp only [decodedRequest, received],
      answers_nothing ?_ ?_⟩ <;> simp [InSize, received]
  | .ok (some (.confirmedRequest, content)) =>
    have inSize : InSize opts frame .confirmedRequest content := received
    match envelope : unmarshalConfirmedRequest content with
    | .error text =>
      refine .inr (.inl ⟨marshalRejectPDU 0 1 0, ?_, ?_, answers_malformed inSize envelope⟩)
      · simp only [frameAction, received, dispatch, handleConfirmedRequest, envelope]
      · simp only [decodedRequest, received, envelope]
    | .ok (invokeID, service) =>
      refine .inr (.inr ⟨⟨invokeID, service.tag, service.bytes⟩, ?_, ?_, fun result =>
        answers_confirmed inSize envelope (carries_confirmedReply opts invokeID result)⟩)
      · simp only [frameAction, received, dispatch, handleConfirmedRequest, envelope]
      · simp only [decodedRequest, received, envelope]
  | .ok (some (.cancelRequest, content)) =>
    have inSize : InSize opts frame .cancelRequest content := received
    match decoded : decodeUnsigned content with
    | .error text =>
      refine .inl ⟨?_, by simp only [decodedRequest, received], answers_nothing ?_ ?_⟩
      · simp only [frameAction, received, dispatch, handleCancelRequest, decoded]
      · intro content' inSize'
        exact nomatch (inSize.unique inSize').1
      · intro content' invokeID inSize' accepted
        obtain ⟨-, rfl⟩ := inSize.unique inSize'
        exact nomatch decoded.symm.trans accepted
    | .ok invokeID =>
      refine .inr (.inl ⟨marshalCancelError invokeID 10 1, ?_, by
        simp only [decodedRequest, received], answers_cancel inSize decoded⟩)
      simp only [frameAction, received, dispatch, handleCancelRequest, decoded]
  | .ok (some (.concludeRequest, content)) => simp [endsLoop, received] at continues
  | .ok (some (.confirmedResponse, _)) | .ok (some (.confirmedError, _))
  | .ok (some (.unconfirmed, _)) | .ok (some (.reject, _)) | .ok (some (.initiateRequest, _))
  | .ok (some (.initiateResponse, _)) | .ok (some (.initiateError, _))
  | .ok (some (.concludeResponse, _)) | .ok (some (.concludeError, _))
  | .ok (some (.cancelResponse, _)) | .ok (some (.cancelError, _)) =>
    refine .inl ⟨by simp only [frameAction, received, dispatch],
      by simp only [decodedRequest, received], answers_nothing ?_ ?_⟩ <;> simp [InSize, received]

/-- What the frame that ends the loop makes it send: the answer to a release or a conclude. -/
def farewell (opts : MMSOptions) (frame : Octets) : List Octets :=
  match frameAction opts frame with
  | .release => [Isostack.encodeReleaseResponse]
  | .conclude => [Isostack.encodeDataRequest marshalConcludeResponse]
  | _ => []

theorem ends_cases (ends : endsLoop opts frame = true) :
    (∃ text, frameAction opts frame = .fail text) ∨ frameAction opts frame = .release ∨
      frameAction opts frame = .conclude := by
  rw [endsLoop] at ends
  split at ends
  · rename_i text received
    cases finish : Isostack.decodeReleaseRequest frame with
    | error other =>
      exact .inl ⟨"serverconn: decode data: " ++ text, by
        simp only [frameAction, received, finish]⟩
    | ok done => exact .inr (.inl (by simp only [frameAction, received, finish]))
  · next content received => exact .inr (.inr (by simp only [frameAction, received, dispatch]))
  · exact nomatch ends

end Frames

/-! ## The loop -/

namespace Conn

variable {σ : Type u} (opts : MMSOptions) (handler : σ → Call → HandlerResult × σ)
  (receiveError : String)

/-- One pass over a frame that does not end the loop. -/
theorem serve_continues (conn : Conn σ) {frame : Octets}
    (continues : endsLoop opts frame = false) :
    ∃ (pdus : List Octets) (after : Conn σ), Answers opts frame pdus ∧
      after.sent = conn.sent ++ pdus.map Isostack.encodeDataRequest ∧
      after.calls = conn.calls ++ (decodedRequest opts frame).toList ∧
      ∀ frames, conn.serve opts handler receiveError (frame :: frames) =
        after.serve opts handler receiveError frames := by
  rcases continues_cases continues with ⟨action, request, answers⟩ |
    ⟨pdu, action, request, answers⟩ | ⟨call, action, request, answers⟩
  · refine ⟨[], conn, answers, by simp, by simp [request], ?_⟩
    intro frames
    simp only [serve, action]
  · refine ⟨[pdu], conn.sendData pdu, answers, rfl, by simp [request, sendData, send], ?_⟩
    intro frames
    simp only [serve, action]
  · refine ⟨_, conn.answer opts handler call, answers (handler conn.handlerState call).1, rfl,
      by simp [request, answer, sendData, send], ?_⟩
    intro frames
    simp only [serve, action]

/-- The last pass sends at most the farewell and calls no handler. -/
theorem serve_ends (conn : Conn σ) {frame : Octets} (ends : endsLoop opts frame = true)
    (frames : List Octets) :
    (conn.serve opts handler receiveError (frame :: frames)).1 =
      { conn with sent := conn.sent ++ farewell opts frame } := by
  rcases ends_cases ends with ⟨text, action⟩ | action | action <;>
    simp [serve, action, farewell, sendData, send]

/-- The frames before the one that ends the loop are answered one by one in order, and the
handler is called once for each decoded confirmed request among them, in order, and for no other
frame. -/
theorem serve_answersInOrder (conn : Conn σ) (frames : List Octets) :
    ∃ replies : List (List Octets),
      List.Forall₂ (Answers opts) (frames.takeWhile (!endsLoop opts ·)) replies ∧
      (conn.serve opts handler receiveError frames).1.sent =
        conn.sent ++ replies.flatten.map Isostack.encodeDataRequest ++
          (frames.dropWhile (!endsLoop opts ·)).head?.elim [] (farewell opts) ∧
      (conn.serve opts handler receiveError frames).1.calls =
        conn.calls ++ (frames.takeWhile (!endsLoop opts ·)).filterMap (decodedRequest opts) := by
  induction frames generalizing conn with
  | nil => exact ⟨[], .nil, by simp [serve], by simp [serve]⟩
  | cons frame frames ih =>
    cases ends : endsLoop opts frame with
    | true =>
      refine ⟨[], ?_, ?_, ?_⟩
      · simp [ends]
      · simp [serve_ends opts handler receiveError conn ends, ends]
      · simp [serve_ends opts handler receiveError conn ends, ends]
    | false =>
      obtain ⟨pdus, after, answers, sent, calls, pass⟩ :=
        serve_continues opts handler receiveError conn ends
      obtain ⟨replies, matched, sentRest, callsRest⟩ := ih after
      refine ⟨pdus :: replies, ?_, ?_, ?_⟩
      · simpa [ends] using ⟨answers, matched⟩
      · rw [pass, sentRest, sent]
        simp [ends]
      · rw [pass, callsRest, calls]
        cases request : decodedRequest opts frame <;> simp [ends, request]

end Conn

end GoMms.Serverconn
