import GoMms.Pdu.AccessRequest
import GoMms.Serverconn.Negotiation

/-!
# Confirmed requests

`sendConfirmed` of the client against the loop of a server connection. The request travels as a
data frame, the loop sends its reply as another one, and the client's reader hands the reply to the
request whose invoke ID it carries. A response or a service error that a handler returns is what
the request ends in, as long as the PDUs are within the negotiated size (`awaitReply_response`,
`awaitReply_serviceError`).
-/

namespace GoMms.Mms

open Berutil Codec Pdu Serverconn

universe u

/-! ## The client -/

/-- What a confirmed request can fail with. If the reader has stopped, that is its cause; a request
that no reply is delivered to ends when its context does. -/
inductive RequestError where
  | closed (cause : String)
  | contextDone
  | decode (text : String)
  | protocol (message : String)
  | service (errorClass errorCode : Int64) (invokeID : UInt32)
  | reject (reject : RejectPDU)
  deriving DecidableEq, Repr

def handleConfirmedError (expectedID : UInt32) (content : Octets) : RequestError :=
  match decodeConfirmedError content with
  | .error text => .decode ("mms: decode confirmed error: " ++ text)
  | .ok error =>
    if error.invokeID ≠ expectedID then
      .protocol ("confirmed error invoke ID mismatch: sent " ++ toString expectedID.toNat ++
        ", received " ++ toString error.invokeID.toNat)
    else .service error.errorClass error.errorCode error.invokeID

def handleReject (expectedID : UInt32) (content : Octets) : RequestError :=
  match decodeRejectPDU content with
  | .error text => .decode ("mms: decode reject: " ++ text)
  | .ok reject =>
    if reject.hasInvokeID ∧ reject.invokeID ≠ expectedID then
      .protocol ("reject invoke ID mismatch: sent " ++ toString expectedID.toNat ++
        ", received " ++ toString reject.invokeID.toNat)
    else .reject reject

def processConfirmedPDU (invokeID : UInt32) (kind : PduKind) (content : Octets) :
    Except RequestError ConfirmedResponse :=
  match kind with
  | .confirmedResponse =>
    match decodeConfirmedResponse content with
    | .error text => .error (.decode ("mms: " ++ text))
    | .ok confirmed =>
      if confirmed.invokeID ≠ invokeID then
        .error (.protocol ("confirmed response invoke ID mismatch: expected " ++
          toString invokeID.toNat ++ ", got " ++ toString confirmed.invokeID.toNat))
      else .ok confirmed
  | .confirmedError => .error (handleConfirmedError invokeID content)
  | .reject => .error (handleReject invokeID content)
  | kind => .error (.protocol ("unexpected PDU type " ++ kind.string ++ " for confirmed request"))

/-- One pass of `readerLoop` over a frame, while `invokeID` is the only pending request: the reply
delivered to it, if any, or the error that stops the loop. -/
def readFrame (opts : MMSOptions) (invokeID : UInt32) (frame : Octets) :
    Except RequestError (Option (PduKind × Octets)) :=
  match Isostack.decodeDataResponse frame with
  | .error text => .error (.closed text)
  | .ok mmsPayload =>
    if opts.exceededBy mmsPayload then
      .error (.closed ("received PDU size " ++ toString mmsPayload.length ++
        " exceeds negotiated max " ++ toString opts.maxPDUSize.toInt))
    else
      match decodePdu mmsPayload with
      | .error text => .error (.closed ("decode PDU: " ++ text))
      | .ok (kind, content) =>
        if kind = .confirmedResponse ∨ kind = .confirmedError ∨ kind = .reject then
          match extractInvokeID content with
          | .error _ => .ok none
          | .ok id => .ok (if id = invokeID then some (kind, content) else none)
        else .ok none

/-- The reader takes the frames in turn until it delivers a reply or stops. -/
def awaitReply (opts : MMSOptions) (invokeID : UInt32) :
    List Octets → Except RequestError ConfirmedResponse
  | [] => .error .contextDone
  | frame :: frames =>
    match readFrame opts invokeID frame with
    | .error error => .error error
    | .ok none => awaitReply opts invokeID frames
    | .ok (some (kind, content)) => processConfirmedPDU invokeID kind content

section Exchange

variable {σ : Type u} (opts : MMSOptions) (handler : σ → Call → HandlerResult × σ)

/-- `sendConfirmed` on a connection whose loop has answered everything before: the server takes
the request, and the client reads what it sends. -/
def sendConfirmed (invokeID : UInt32) (mmsPdu : Octets) (conn : Conn σ) :
    Except RequestError ConfirmedResponse × Conn σ :=
  let after := (conn.serve opts handler "context canceled" [Isostack.encodeDataRequest mmsPdu]).1
  (awaitReply opts invokeID (after.sent.drop conn.sent.length), after)

/-- What the client's methods have in common: the response must be of the service asked for, and
its data must decode. -/
def expectService {Result : Type} (kind : ServiceKind) (unmarshal : Octets → Except String Result) :
    Except RequestError ConfirmedResponse → Except RequestError Result
  | .error error => .error error
  | .ok confirmed =>
    if confirmed.serviceKind ≠ kind then
      .error (.protocol ("expected " ++ kind.string ++ " response, got " ++
        confirmed.serviceKind.string))
    else
      match unmarshal confirmed.serviceData.bytes with
      | .error text => .error (.decode ("mms: " ++ text))
      | .ok result => .ok result

variable {opts handler}

/-- The PDU is within the negotiated size, and its frame within the lengths that the decoders can
express. -/
structure Travels (opts : MMSOptions) (pdu : Octets) : Prop where
  inSize : opts.exceededBy pdu = false
  short : pdu.length + 33 < maxContent

variable {pdu respPayload : Octets} {invokeID : UInt32} {respTag : Int64} {constructed : Bool}

theorem travels_of_le (size : 0 < opts.maxPDUSize.toInt)
    (moderate : opts.maxPDUSize.toInt + 33 < maxContent)
    (fits : (pdu.length : Int) ≤ opts.maxPDUSize.toInt) : Travels opts pdu :=
  ⟨(exceededBy_eq_false_iff size).mpr fits, by omega⟩

theorem Travels.decodeDataResponse (travels : Travels opts pdu) :
    Isostack.decodeDataResponse (Isostack.encodeDataRequest pdu) = .ok pdu := by
  have short := travels.short
  have user := Isostack.length_encodeUserData_le (show pdu.length < 2 ^ 63 by
    unfold maxContent at short
    omega)
  exact Isostack.decodeDataResponse_encodeDataRequest (user.trans_lt short)

/-- A response that travels is not replaced by an error. -/
theorem confirmedReply_response
    (travels : Travels opts (marshalConfirmedResponse invokeID respTag constructed respPayload)) :
    confirmedReply opts invokeID (.response respTag constructed respPayload) =
      marshalConfirmedResponse invokeID respTag constructed respPayload := by
  simp only [confirmedReply, travels.inSize, Bool.false_eq_true, if_false]

@[simp] theorem handlerState_answer (conn : Conn σ) (call : Call) :
    (conn.answer opts handler call).handlerState = (handler conn.handlerState call).2 := rfl

@[simp] theorem sent_answer (conn : Conn σ) (call : Call) :
    (conn.answer opts handler call).sent = conn.sent ++ [Isostack.encodeDataRequest
      (confirmedReply opts call.invokeID (handler conn.handlerState call).1)] := rfl

/-- A frame that carries the reply to a request is delivered to it. -/
theorem readFrame_reply {content : Octets} {kind : PduKind} (travels : Travels opts pdu)
    (decoded : decodePdu pdu = .ok (kind, content))
    (reply : kind = .confirmedResponse ∨ kind = .confirmedError ∨ kind = .reject)
    (carries : extractInvokeID content = .ok invokeID) :
    readFrame opts invokeID (Isostack.encodeDataRequest pdu) = .ok (some (kind, content)) := by
  simp only [readFrame, travels.decodeDataResponse, travels.inSize, Bool.false_eq_true, if_false,
    decoded, reply, if_true, carries]

/-- The loop hands a request to its handler and sends one reply. -/
theorem serve_request {conn : Conn σ} {body : Octets} {tag : Nat} (travels : Travels opts pdu)
    (delivers : Delivers pdu invokeID tag body) (receiveError : String) :
    (conn.serve opts handler receiveError [Isostack.encodeDataRequest pdu]).1 =
      conn.answer opts handler ⟨invokeID, tag, body⟩ := by
  obtain ⟨content, raw, decoded, envelope, rfl, rfl⟩ := delivers
  have action : frameAction opts (Isostack.encodeDataRequest pdu) =
      .request ⟨invokeID, raw.tag, raw.bytes⟩ := by
    simp only [frameAction, receivePdu, travels.decodeDataResponse, travels.inSize,
      Bool.false_eq_true, if_false, decoded, dispatch, handleConfirmedRequest, envelope]
  simp only [Conn.serve, action]

/-- The client gets what its reader makes of the reply to the handler's result. -/
theorem sendConfirmed_eq {conn : Conn σ} {body : Octets} {tag : Nat} (travels : Travels opts pdu)
    (delivers : Delivers pdu invokeID tag body) :
    sendConfirmed opts handler invokeID pdu conn =
      (awaitReply opts invokeID [Isostack.encodeDataRequest (confirmedReply opts invokeID
          (handler conn.handlerState ⟨invokeID, tag, body⟩).1)],
        conn.answer opts handler ⟨invokeID, tag, body⟩) := by
  rw [sendConfirmed, serve_request travels delivers]
  simp

theorem awaitReply_response (small : respTag.toInt < 2 ^ 31)
    (travels : Travels opts (marshalConfirmedResponse invokeID respTag constructed respPayload)) :
    awaitReply opts invokeID [Isostack.encodeDataRequest
        (confirmedReply opts invokeID (.response respTag constructed respPayload))] =
      .ok ⟨invokeID, classifyServiceByTagNum respTag.toInt.toNat,
        ⟨2, respTag.toInt.toNat, constructed, respPayload⟩⟩ := by
  have payload : respPayload.length < maxContent := by
    have short := travels.short
    rw [length_marshalConfirmedResponse, responseSize, tlvSize] at short
    omega
  obtain ⟨content, decoded, confirmed, carries⟩ :=
    confirmedResponse_arrives invokeID small constructed payload
  simp only [awaitReply, confirmedReply_response travels,
    readFrame_reply travels decoded (.inl rfl) carries,
    processConfirmedPDU, confirmed, ne_eq, not_true_eq_false, if_false]

/-- A method of the client returns what it decodes from the payload of the response. -/
theorem expectService_response {Result : Type} {kind : ServiceKind}
    {unmarshal : Octets → Except String Result} {result : Result} (small : respTag.toInt < 2 ^ 31)
    (travels : Travels opts (marshalConfirmedResponse invokeID respTag constructed respPayload))
    (same : classifyServiceByTagNum respTag.toInt.toNat = kind)
    (decoded : unmarshal respPayload = .ok result) :
    expectService kind unmarshal (awaitReply opts invokeID [Isostack.encodeDataRequest
        (confirmedReply opts invokeID (.response respTag constructed respPayload))]) =
      .ok result := by
  rw [awaitReply_response small travels]
  simp only [expectService, same, ne_eq, not_true_eq_false, if_false, decoded]

theorem awaitReply_serviceError {errorClass errorCode : Int64} (nonneg : 0 ≤ errorClass.toInt)
    (small : errorClass.toInt ≤ 30) (fits : InInt32 errorCode)
    (travels : Travels opts (marshalConfirmedError invokeID errorClass errorCode)) :
    awaitReply opts invokeID [Isostack.encodeDataRequest
        (confirmedReply opts invokeID (.serviceError errorClass errorCode))] =
      .error (.service errorClass errorCode invokeID) := by
  obtain ⟨content, decoded, confirmed, carries⟩ := confirmedError_arrives invokeID nonneg small fits
  simp only [awaitReply, confirmedReply, readFrame_reply travels decoded (.inr (.inl rfl)) carries,
    processConfirmedPDU, handleConfirmedError, confirmed, ne_eq, not_true_eq_false, if_false]

end Exchange

end GoMms.Mms
