import GoMms.Codec.Sizes
import GoMms.Iso.Framing
import GoMms.Serverconn.Conn

/-!
# Negotiation

The parameters that an association agrees on: the client proposes them in its Initiate request,
`negotiate` answers for the server and `applyNegotiatedParams` takes the answer over. Both ends
hold the same parameters afterwards, and no reply of the server exceeds the agreed PDU size.
-/

namespace GoMms.Serverconn

open Berutil Codec

/-- The four parameters, as the options of either side and a connection hold them. -/
structure Parameters extends MMSOptions where
  maxOutstandingCalling : Int64
  maxOutstandingCalled : Int64
  dataStructureNestingLevel : Int64
  deriving DecidableEq, Repr

/-! ## Initiate PDUs -/

structure BitString where
  bytes : Octets
  bitLength : Int64
  deriving DecidableEq, Repr

structure InitRequestDetail where
  proposedVersion : Int64
  proposedParamCBB : BitString
  servicesSupportedCalling : BitString
  deriving DecidableEq, Repr

structure InitiateRequest where
  localDetailCalling : Int64
  proposedMaxServOutstandingCall : Int64
  proposedMaxServOutstandingCalled : Int64
  proposedDataStructureNesting : Int64
  initRequestDetail : InitRequestDetail
  deriving DecidableEq, Repr

structure InitResponseDetail where
  negotiatedVersion : Int64
  negotiatedParamCBB : BitString
  servicesSupportedCalled : BitString
  deriving DecidableEq, Repr

structure InitiateResponse where
  localDetailCalled : Int64
  negotiatedMaxServOutstandingCall : Int64
  negotiatedMaxServOutstandingCalled : Int64
  negotiatedDataStructureNesting : Int64
  initResponseDetail : InitResponseDetail
  deriving DecidableEq, Repr

/-- An option that is not positive means its default. -/
def orDefault (value default : Int64) : Int64 :=
  if value ≤ 0 then default else value

/-- The request with common defaults. -/
def defaultInitiateRequest (maxPDU maxOutCalling maxOutCalled nestingLevel : Int64) :
    InitiateRequest where
  localDetailCalling := orDefault maxPDU 65000
  proposedMaxServOutstandingCall := orDefault maxOutCalling 5
  proposedMaxServOutstandingCalled := orDefault maxOutCalled 5
  proposedDataStructureNesting := orDefault nestingLevel 10
  initRequestDetail :=
    { proposedVersion := 1
      proposedParamCBB := ⟨[0xf1, 0x00], 11⟩
      servicesSupportedCalling :=
        ⟨[0xee, 0x1c, 0x00, 0x00, 0x04, 0x08, 0x00, 0x00, 0x79, 0xef, 0x18], 85⟩ }

/-- The request a client with these options sends when it connects. -/
def Parameters.initiateRequest (mmsOpts : Parameters) : InitiateRequest :=
  defaultInitiateRequest mmsOpts.maxPDUSize mmsOpts.maxOutstandingCalling
    mmsOpts.maxOutstandingCalled mmsOpts.dataStructureNestingLevel

/-! ## The server's side -/

/-- `ServerMMSOptions.withDefaults`. -/
def Parameters.withDefaults (opts : Parameters) : Parameters where
  maxPDUSize := orDefault opts.maxPDUSize 65000
  maxOutstandingCalling := orDefault opts.maxOutstandingCalling 5
  maxOutstandingCalled := orDefault opts.maxOutstandingCalled 5
  dataStructureNestingLevel := orDefault opts.dataStructureNestingLevel 10

/-- Go's `min` of two ints. -/
def minInt (first second : Int64) : Int64 :=
  if first ≤ second then first else second

def minPDUSize : Int64 := 128
def minOutstanding : Int64 := 1
def minNestingLevel : Int64 := 1

def clampMin (val minimum : Int64) : Int64 :=
  if val < minimum then minimum else val

def negotiate (mmsOpts : Parameters) (req : InitiateRequest) : Parameters where
  maxPDUSize := clampMin (minInt mmsOpts.maxPDUSize req.localDetailCalling) minPDUSize
  maxOutstandingCalling :=
    clampMin (minInt mmsOpts.maxOutstandingCalling req.proposedMaxServOutstandingCall)
      minOutstanding
  maxOutstandingCalled :=
    clampMin (minInt mmsOpts.maxOutstandingCalled req.proposedMaxServOutstandingCalled)
      minOutstanding
  dataStructureNestingLevel :=
    clampMin (minInt mmsOpts.dataStructureNestingLevel req.proposedDataStructureNesting)
      minNestingLevel

/-- `AcceptAssociation`: the Initiate response to a request. -/
def initiateResponse (negotiated : Parameters) (initReq : InitiateRequest) : InitiateResponse where
  localDetailCalled := negotiated.maxPDUSize
  negotiatedMaxServOutstandingCall := negotiated.maxOutstandingCalling
  negotiatedMaxServOutstandingCalled := negotiated.maxOutstandingCalled
  negotiatedDataStructureNesting := negotiated.dataStructureNestingLevel
  initResponseDetail :=
    { negotiatedVersion := 1
      negotiatedParamCBB := initReq.initRequestDetail.proposedParamCBB
      servicesSupportedCalled := initReq.initRequestDetail.servicesSupportedCalling }

/-! ## The client's side -/

/-- What a client keeps of the negotiation. -/
structure ClientParams where
  maxPDUSize : Int64
  maxOutCalling : Int64
  maxOutCalled : Int64
  nestingLevel : Int64
  serverVersion : Int64
  deriving DecidableEq, Repr

/-- The assignments of `applyNegotiatedParams`. -/
def takeOver (req : InitiateRequest) (resp : InitiateResponse) : ClientParams where
  maxPDUSize := orDefault resp.localDetailCalled req.localDetailCalling
  maxOutCalling := orDefault
    (minInt req.proposedMaxServOutstandingCall resp.negotiatedMaxServOutstandingCall) 1
  maxOutCalled := orDefault
    (minInt req.proposedMaxServOutstandingCalled resp.negotiatedMaxServOutstandingCalled) 1
  nestingLevel := orDefault resp.negotiatedDataStructureNesting req.proposedDataStructureNesting
  serverVersion := resp.initResponseDetail.negotiatedVersion

def applyNegotiatedParams (req : InitiateRequest) (resp : InitiateResponse) :
    Except String ClientParams :=
  let params := takeOver req resp
  if params.serverVersion ≤ 0 then
    .error ("mms: protocol error [mms]: invalid negotiated version " ++
      toString params.serverVersion.toInt)
  else .ok params

/-- `Client.checkPDUSize`. -/
def ClientParams.checkPDUSize (client : ClientParams) (mmsPayload : Octets) : Except String Unit :=
  if client.maxPDUSize > 0 ∧ (mmsPayload.length : Int) > client.maxPDUSize.toInt then
    .error ("mms: received PDU size " ++ toString mmsPayload.length ++ " exceeds negotiated max " ++
      toString client.maxPDUSize.toInt)
  else .ok ()

/-! ## Agreement -/

theorem toInt_minInt (first second : Int64) :
    (minInt first second).toInt = min first.toInt second.toInt := by
  rw [minInt, min_def]
  simp only [Int64.le_iff_toInt_le]
  split <;> rfl

theorem toInt_clampMin (val minimum : Int64) :
    (clampMin val minimum).toInt = max minimum.toInt val.toInt := by
  rw [clampMin]
  simp only [Int64.lt_iff_toInt_lt]
  split <;> omega

theorem orDefault_of_pos {value : Int64} (positive : 0 < value.toInt) (default : Int64) :
    orDefault value default = value := by
  rw [orDefault, if_neg]
  rw [Int64.le_iff_toInt_le]
  exact Int.not_le.mpr positive

/-- A limit that the server clamped is what the client settles on, whatever it proposed. -/
theorem orDefault_min_clampMin (proposal limit : Int64) :
    orDefault (minInt proposal (clampMin (minInt limit proposal) minOutstanding)) 1 =
      clampMin (minInt limit proposal) minOutstanding := by
  have one : (1 : Int64).toInt = 1 := by decide
  have floor : minOutstanding.toInt = 1 := by decide
  have zero : (0 : Int64).toInt = 0 := by decide
  have server := toInt_clampMin (minInt limit proposal) minOutstanding
  have client := toInt_minInt proposal (clampMin (minInt limit proposal) minOutstanding)
  rw [toInt_minInt, floor] at server
  apply Int64.toInt_inj.mp
  rw [orDefault]
  simp only [Int64.le_iff_toInt_le, zero]
  split
  · omega
  · omega

/-- Both ends hold the same parameters, and the PDU size is the smaller of limit and proposal but
at least 128. -/
theorem negotiate_agrees (limits : Parameters) (req : InitiateRequest) :
    ∃ client, applyNegotiatedParams req (initiateResponse (negotiate limits req) req) =
        .ok client ∧
      client.maxPDUSize = (negotiate limits req).maxPDUSize ∧
      client.maxOutCalling = (negotiate limits req).maxOutstandingCalling ∧
      client.maxOutCalled = (negotiate limits req).maxOutstandingCalled ∧
      client.nestingLevel = (negotiate limits req).dataStructureNestingLevel ∧
      (negotiate limits req).maxPDUSize.toInt =
        max 128 (min req.localDetailCalling.toInt limits.maxPDUSize.toInt) := by
  have size : (negotiate limits req).maxPDUSize.toInt =
      max 128 (min req.localDetailCalling.toInt limits.maxPDUSize.toInt) := by
    rw [negotiate, toInt_clampMin, toInt_minInt, min_comm]
    rfl
  have nesting : 0 < (negotiate limits req).dataStructureNestingLevel.toInt := by
    rw [negotiate, toInt_clampMin]
    exact (show (0 : Int) < minNestingLevel.toInt by decide).trans_le (le_max_left _ _)
  have version : ¬ (takeOver req (initiateResponse (negotiate limits req) req)).serverVersion ≤ 0 :=
    show ¬ (1 : Int64) ≤ 0 by decide
  refine ⟨takeOver req (initiateResponse (negotiate limits req) req), ?_, ?_, ?_, ?_, ?_, size⟩
  · rw [applyNegotiatedParams, if_neg version]
  · simp only [takeOver, initiateResponse]
    exact orDefault_of_pos (by omega) req.localDetailCalling
  · simp only [takeOver, initiateResponse, negotiate]
    exact orDefault_min_clampMin req.proposedMaxServOutstandingCall limits.maxOutstandingCalling
  · simp only [takeOver, initiateResponse, negotiate]
    exact orDefault_min_clampMin req.proposedMaxServOutstandingCalled limits.maxOutstandingCalled
  · simp only [takeOver, initiateResponse]
    exact orDefault_of_pos nesting req.proposedDataStructureNesting

/-! ## Every reply fits -/

namespace Conn

variable {σ : Type*}

/-- `handleConfirmedRequest`: answer a malformed request at once, or call the handler and send
the reply to what it returned. -/
def confirmed (opts : MMSOptions) (handler : σ → Call → HandlerResult × σ) (conn : Conn σ)
    (content : Octets) : Conn σ :=
  match handleConfirmedRequest content with
  | .reply pdu => conn.sendData pdu
  | .request call => conn.answer opts handler call
  | _ => conn

end Conn

variable {opts : MMSOptions}

theorem exceededBy_eq_false_iff {data : Octets} (positive : 0 < opts.maxPDUSize.toInt) :
    opts.exceededBy data = false ↔ (data.length : Int) ≤ opts.maxPDUSize.toInt := by
  have set : opts.maxPDUSize > 0 := Int64.lt_iff_toInt_lt.mpr positive
  simp [MMSOptions.exceededBy, set]

/-- The reply to a handled request fits, also when it replaces an oversize response. -/
theorem length_confirmedReply_le (usable : 32 ≤ opts.maxPDUSize.toInt) (invokeID : UInt32)
    (result : HandlerResult) :
    ((confirmedReply opts invokeID result).length : Int) ≤ opts.maxPDUSize.toInt := by
  have short : ∀ errorClass errorCode,
      ((marshalConfirmedError invokeID errorClass errorCode).length : Int) ≤
        opts.maxPDUSize.toInt := by
    intro errorClass errorCode
    have bound := length_marshalConfirmedError_le invokeID errorClass errorCode
    omega
  cases result with
  | serviceError errorClass errorCode => exact short errorClass errorCode
  | failure text => exact short 7 1
  | response respTag constructed respPayload =>
    simp only [confirmedReply]
    split
    · exact short 3 0
    · next fits => exact (exceededBy_eq_false_iff (by omega)).mp (by simpa using fits)

/-- One confirmed request, malformed or handled, makes the server send one PDU, which fits. -/
theorem confirmed_sends {σ : Type*} (usable : 32 ≤ opts.maxPDUSize.toInt)
    (handler : σ → Call → HandlerResult × σ) (conn : Conn σ) (content : Octets) :
    ∃ pdu, (conn.confirmed opts handler content).sent =
        conn.sent ++ [Isostack.encodeDataRequest pdu] ∧
      (pdu.length : Int) ≤ opts.maxPDUSize.toInt := by
  unfold Conn.confirmed handleConfirmedRequest
  cases unmarshalConfirmedRequest content with
  | error text =>
    refine ⟨marshalRejectPDU 0 1 0, rfl, ?_⟩
    have bound := length_marshalRejectPDU_le 0 1 0
    omega
  | ok envelope => exact ⟨_, rfl, length_confirmedReply_le usable _ _⟩

/-- A client that holds the server's PDU size does not reject a PDU within it, however the frame
was decoded. -/
theorem checkPDUSize_received {client : ClientParams} {pdu received : Octets}
    (fits : (pdu.length : Int) ≤ client.maxPDUSize.toInt)
    (decoded : Isostack.decodeDataResponse (Isostack.encodeDataRequest pdu) = .ok received) :
    client.checkPDUSize received = .ok () := by
  have word := client.maxPDUSize.toInt_lt
  have framed := Isostack.length_encodeUserData_le (show pdu.length < 2 ^ 63 by omega)
  obtain rfl := Isostack.eq_of_decodeDataResponse (by omega) decoded
  rw [ClientParams.checkPDUSize, if_neg]
  rintro ⟨-, oversize⟩
  omega

/-- Whatever the options of client and server, both ends agree, and no reply of the server to a
confirmed request exceeds the agreed size or is rejected by the client for its size. -/
theorem negotiated_size_respected {σ : Type*} (clientOpts serverOpts : Parameters) :
    let req := clientOpts.initiateRequest
    let server := negotiate serverOpts.withDefaults req
    ∃ client, applyNegotiatedParams req (initiateResponse server req) = .ok client ∧
      client.maxPDUSize = server.maxPDUSize ∧
      server.maxPDUSize.toInt =
        max 128 (min req.localDetailCalling.toInt serverOpts.withDefaults.maxPDUSize.toInt) ∧
      client.maxOutCalling = server.maxOutstandingCalling ∧
      client.maxOutCalled = server.maxOutstandingCalled ∧
      client.nestingLevel = server.dataStructureNestingLevel ∧
      (∀ invokeID result,
        ((confirmedReply server.toMMSOptions invokeID result).length : Int) ≤
          server.maxPDUSize.toInt) ∧
      ∀ (handler : σ → Call → HandlerResult × σ) (conn : Conn σ) (content : Octets), ∃ pdu,
        (conn.confirmed server.toMMSOptions handler content).sent =
          conn.sent ++ [Isostack.encodeDataRequest pdu] ∧
        (pdu.length : Int) ≤ server.maxPDUSize.toInt ∧
        ∀ received, Isostack.decodeDataResponse (Isostack.encodeDataRequest pdu) = .ok received →
          client.checkPDUSize received = .ok () := by
  intro req server
  obtain ⟨client, accepted, sameSize, calling, called, nesting, size⟩ :=
    negotiate_agrees serverOpts.withDefaults req
  have usable : 32 ≤ server.maxPDUSize.toInt := by
    rw [size]
    omega
  refine ⟨client, accepted, sameSize, size, calling, called, nesting,
    length_confirmedReply_le usable, fun handler conn content => ?_⟩
  obtain ⟨pdu, sent, fits⟩ := confirmed_sends usable handler conn content
  refine ⟨pdu, sent, fits, fun received decoded => ?_⟩
  exact checkPDUSize_received (by rw [sameSize]; exact fits) decoded

end GoMms.Serverconn
