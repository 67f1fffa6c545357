import GoMms.Berutil.Fields
import GoMms.Codec.Request
import GoMms.Codec.Sizes

/-!
# Replies

What a client reads from the PDUs that answer a request: a confirmed response through
`encoding/asn1`, a confirmed error and a reject field by field. Every reply of a server arrives
with its invoke ID and with what it says about the request.
-/

namespace GoMms.Codec

open Octets Berutil

/-! ## Confirmed responses -/

inductive ServiceKind where
  | status
  | getNameList
  | identify
  | read
  | write
  | getVariableAccessAttrs
  | defineNamedVariableList
  | getNamedVariableListAttrs
  | deleteNamedVariableList
  | fileOpen
  | fileRead
  | fileClose
  | fileRename
  | fileDelete
  | fileDirectory
  | obtainFile
  | readJournal
  | unknown
  deriving DecidableEq, Repr

def ServiceKind.string : ServiceKind → String
  | .status => "Status"
  | .getNameList => "GetNameList"
  | .identify => "Identify"
  | .read => "Read"
  | .write => "Write"
  | .getVariableAccessAttrs => "GetVariableAccessAttributes"
  | .defineNamedVariableList => "DefineNamedVariableList"
  | .getNamedVariableListAttrs => "GetNamedVariableListAttributes"
  | .deleteNamedVariableList => "DeleteNamedVariableList"
  | .fileOpen => "FileOpen"
  | .fileRead => "FileRead"
  | .fileClose => "FileClose"
  | .fileRename => "FileRename"
  | .fileDelete => "FileDelete"
  | .fileDirectory => "FileDirectory"
  | .obtainFile => "ObtainFile"
  | .readJournal => "ReadJournal"
  | .unknown => "Unknown"

def classifyServiceByTagNum (tagNum : Nat) : ServiceKind :=
  match tagNum with
  | 0 => .status
  | 1 => .getNameList
  | 2 => .identify
  | 4 => .read
  | 5 => .write
  | 6 => .getVariableAccessAttrs
  | 11 => .defineNamedVariableList
  | 12 => .getNamedVariableListAttrs
  | 13 => .deleteNamedVariableList
  | 72 => .fileOpen
  | 73 => .fileRead
  | 74 => .fileClose
  | 75 => .fileRename
  | 76 => .fileDelete
  | 77 => .fileDirectory
  | 46 => .obtainFile
  | 65 => .readJournal
  | _ => .unknown

structure ConfirmedResponse where
  invokeID : UInt32
  serviceKind : ServiceKind
  serviceData : Asn1.RawValue
  deriving DecidableEq, Repr

def unmarshalConfirmedResponse (content : Octets) : Except String (UInt32 × Asn1.RawValue) :=
  unmarshalConfirmedEnvelope content

def decodeConfirmedResponse (content : Octets) : Except String ConfirmedResponse :=
  match unmarshalConfirmedResponse content with
  | .error text => .error ("pdu: " ++ text)
  | .ok (invokeID, serviceRaw) =>
    .ok ⟨invokeID, classifyServiceByTagNum serviceRaw.tag, serviceRaw⟩

/-! ## Confirmed errors -/

structure ConfirmedError where
  invokeID : UInt32 := 0
  errorClass : Int64 := 0
  errorCode : Int64 := 0
  deriving DecidableEq, Repr

/-- `int(tag) - 0x80`. -/
def choiceNumber (tag : UInt8) : Int64 := Int64.ofInt (tag.toNat - 0x80)

/-- The code in a CHOICE of INTEGERs; an empty one leaves the code as it was. -/
def choiceCode (context : String) (inner : Octets) (before : Int64) : Except String Int64 :=
  if inner.length > 0 then
    match decodeInteger inner with
    | .error text => .error (context ++ text)
    | .ok val => .ok val
  else .ok before

def parseErrorClass (data : Octets) (result : ConfirmedError) : Except String ConfirmedError :=
  if data.length = 0 then .ok result
  else
    match decodeTLVAt data 0 with
    | .error text => .error ("pdu: error class: " ++ text)
    | .ok tlv =>
      if tlv.consumed ≠ data.length then
        .error ("pdu: error class: " ++ toString (data.length - tlv.consumed) ++ " trailing bytes")
      else
        match choiceCode "pdu: error code: " tlv.content result.errorCode with
        | .error text => .error text
        | .ok code =>
          .ok { result with errorClass := choiceNumber tlv.tag, errorCode := code }

def parseServiceError (data : Octets) (result : ConfirmedError) : Except String ConfirmedError :=
  match findField "pdu: service error field: " 0xa0 data with
  | .error text => .error text
  | .ok none => .ok result
  | .ok (some inner) => parseErrorClass inner result

/-- One field of a confirmed error; the flag tells whether the invoke ID was there. -/
def confirmedErrorField (state : ConfirmedError × Bool) (tag : UInt8) (inner : Octets) :
    Except String (ConfirmedError × Bool) :=
  if tag = 0x80 then
    match decodeUnsigned inner with
    | .error text => .error ("pdu: confirmed error invokeID: " ++ text)
    | .ok id => .ok ({ state.1 with invokeID := id }, true)
  else if tag = 0xa2 then
    match parseServiceError inner state.1 with
    | .error text => .error text
    | .ok result => .ok (result, state.2)
  else .error ("pdu: confirmed error: unexpected tag 0x" ++ hex02 tag)

def decodeConfirmedError (content : Octets) : Except String ConfirmedError :=
  if content.length = 0 then .error "pdu: confirmed error: empty content"
  else
    match decodeFields (fun _ => "pdu: confirmed error field: ") confirmedErrorField content
      ({}, false) with
    | .error text => .error text
    | .ok (result, hasInvokeID) =>
      if hasInvokeID then .ok result else .error "pdu: confirmed error: missing invokeID"

/-! ## Rejects -/

structure RejectPDU where
  invokeID : UInt32 := 0
  hasInvokeID : Bool := false
  rejectType : Int64 := 0
  rejectReason : Int64 := 0
  deriving DecidableEq, Repr

/-- One field of a reject; the flag tells whether a reason was there. -/
def rejectField (state : RejectPDU × Bool) (tag : UInt8) (inner : Octets) :
    Except String (RejectPDU × Bool) :=
  if tag = 0x80 then
    match decodeUnsigned inner with
    | .error text => .error ("pdu: reject invokeID: " ++ text)
    | .ok id => .ok ({ state.1 with invokeID := id, hasInvokeID := true }, state.2)
  else if 0x81 ≤ tag.toNat ∧ tag.toNat ≤ 0x8b then
    match choiceCode "pdu: reject reason: " inner state.1.rejectReason with
    | .error text => .error text
    | .ok reason =>
      .ok ({ state.1 with rejectType := choiceNumber tag, rejectReason := reason }, true)
  else .error ("pdu: reject: unexpected tag 0x" ++ hex02 tag)

def decodeRejectPDU (content : Octets) : Except String RejectPDU :=
  if content.length = 0 then .error "pdu: reject: empty content"
  else
    match decodeFields (fun _ => "pdu: reject field: ") rejectField content ({}, false) with
    | .error text => .error text
    | .ok (result, hasReason) =>
      if hasReason then .ok result else .error "pdu: reject: missing rejectReason"

/-! ## Replies arrive -/

section Arrival

variable {invokeID : UInt32} {tagNum : Int64} {constructed : Bool} {servicePayload : Octets}

/-- The framing of a service payload takes a few octets. -/
theorem length_requestContent_lt (invokeID : UInt32) (tagNum : Int64) (constructed : Bool)
    (fits : servicePayload.length < maxContent) :
    (requestContent invokeID tagNum constructed servicePayload).length < 2 ^ 31 := by
  have id := length_encodeInt_le (Int64.ofNat invokeID.toNat)
  have idSize :=
    tlvSize_le (show (encodeInt (Int64.ofNat invokeID.toNat)).length < 256 ^ 8 by omega)
  have tag := tagSize_le_ten tagNum
  have length : lengthSize servicePayload.length ≤ 3 + 1 :=
    (lengthSize_le_iff _ (by decide)).mpr fits
  have most : maxContent = 16777216 := rfl
  rw [requestContent, List.length_append, length_encodeTLV, length_wrapContextTag]
  omega

theorem length_le_wrapConstructed (tagNum : Int64) (content : Octets) :
    content.length ≤ (wrapConstructed tagNum content).length := by
  rw [wrapConstructed, length_wrapContextTag]
  omega

/-- A request takes as many octets as a response with the same payload. -/
theorem length_marshalConfirmedRequest (invokeID : UInt32) (tagNum : Int64) (constructed : Bool)
    (servicePayload : Octets) :
    (marshalConfirmedRequest invokeID tagNum constructed servicePayload).length =
      (marshalConfirmedResponse invokeID tagNum constructed servicePayload).length := by
  rw [marshalConfirmedRequest, marshalConfirmedResponse, wrapConstructed, wrapConstructed,
    length_wrapContextTag, length_wrapContextTag]
  rfl

theorem decodePdu_marshalConfirmedResponse (invokeID : UInt32) (tagNum : Int64)
    (constructed : Bool)
    (fits : (requestContent invokeID tagNum constructed servicePayload).length < 2 ^ 31) :
    decodePdu (marshalConfirmedResponse invokeID tagNum constructed servicePayload) =
      .ok (.confirmedResponse, requestContent invokeID tagNum constructed servicePayload) :=
  decodePdu_wrapConstructed (show (1 : Int64).toInt.toNat ≤ 30 by decide) rfl fits

/-- The client takes the invoke ID and the service element out of a response. -/
theorem decodeConfirmedResponse_requestContent (invokeID : UInt32) (small : tagNum.toInt < 2 ^ 31)
    (constructed : Bool) (fits : servicePayload.length < 2 ^ 31) :
    decodeConfirmedResponse (requestContent invokeID tagNum constructed servicePayload) =
      .ok ⟨invokeID, classifyServiceByTagNum tagNum.toInt.toNat,
        ⟨2, tagNum.toInt.toNat, constructed, servicePayload⟩⟩ := by
  have envelope : unmarshalConfirmedResponse
      (requestContent invokeID tagNum constructed servicePayload) =
        .ok (invokeID, ⟨2, tagNum.toInt.toNat, constructed, servicePayload⟩) :=
    unmarshalConfirmedRequest_requestContent invokeID small constructed fits
  simp only [decodeConfirmedResponse, envelope]

/-- A primitive context tag up to 30 is one octet. -/
theorem wrapPrimitive_eq_encodeTLV {number : Int64} (small : number.toInt.toNat ≤ 30)
    (content : Octets) :
    wrapPrimitive number content = encodeTLV (0x80 ||| UInt8.ofNat number.toInt.toNat) content := by
  rw [wrapPrimitive, wrapContextTag, if_pos small]
  rfl

/-- The tag of a CHOICE of INTEGERs gives the alternative back. -/
theorem choiceNumber_wrapPrimitive {number : Int64} (nonneg : 0 ≤ number.toInt)
    (small : number.toInt ≤ 30) :
    (0x80 ||| UInt8.ofNat number.toInt.toNat).toNat = 0x80 + number.toInt.toNat ∧
      choiceNumber (0x80 ||| UInt8.ofNat number.toInt.toNat) = number := by
  have every : ∀ number < 31, (0x80 ||| UInt8.ofNat number).toNat = 0x80 + number := by decide
  have value := every number.toInt.toNat (by omega)
  refine ⟨value, Int64.toInt_inj.mp ?_⟩
  rw [choiceNumber, value, Int64.toInt_ofInt_of_le (by omega) (by omega)]
  omega

theorem choiceCode_encodeInt (context : String) {code : Int64} (fits : InInt32 code)
    (before : Int64) : choiceCode context (encodeInt code) before = .ok code := by
  have filled := List.length_pos_of_ne_nil (isMinimal_encodeInt code).1
  rw [choiceCode, if_pos filled, decodeInteger_encodeInt fits]

variable {errorClass errorCode : Int64}

/-- The error element of a confirmed error is read back whatever was read before. -/
theorem parseServiceError_encode (nonneg : 0 ≤ errorClass.toInt) (small : errorClass.toInt ≤ 30)
    (fits : InInt32 errorCode) (result : ConfirmedError) :
    parseServiceError (encodeTLV 0xa0 (wrapPrimitive errorClass (encodeInt errorCode))) result =
      .ok { result with errorClass := errorClass, errorCode := errorCode } := by
  have code := length_encodeInt_le errorCode
  have size := tlvSize_le (show (encodeInt errorCode).length < 256 ^ 8 by omega)
  obtain ⟨-, number⟩ := choiceNumber_wrapPrimitive nonneg small
  rw [wrapPrimitive_eq_encodeTLV (by omega)]
  have most : maxContent = 16777216 := rfl
  have short : (encodeTLV (0x80 ||| UInt8.ofNat errorClass.toInt.toNat)
      (encodeInt errorCode)).length < maxContent := by
    rw [length_encodeTLV]
    omega
  have found := findField_encodeTLV "pdu: service error field: " 0xa0 short []
  have read := decodeTLVAt_alone (0x80 ||| UInt8.ofNat errorClass.toInt.toNat)
    (show (encodeInt errorCode).length < maxContent by omega)
  rw [List.append_nil] at found
  have nonempty := two_le_tlvSize (encodeInt errorCode).length
  simp only [parseServiceError, found, parseErrorClass, read, length_encodeTLV]
  rw [if_neg (by omega), if_neg (by simp)]
  simp only [choiceCode_encodeInt _ fits, number]

theorem decodeConfirmedError_encode (invokeID : UInt32) (nonneg : 0 ≤ errorClass.toInt)
    (small : errorClass.toInt ≤ 30) (fits : InInt32 errorCode) :
    decodeConfirmedError (encodeTLV 0x80 (encodeUint32 invokeID) ++
        encodeServiceError 0xa2 errorClass errorCode) =
      .ok ⟨invokeID, errorClass, errorCode⟩ := by
  have id := (encodeUint32_spec invokeID).2.2
  have element := length_encodeServiceError_le 0xa2 errorClass errorCode
  have most : maxContent = 16777216 := rfl
  have inner := length_le_encodeTLV 0xa2
    (encodeTLV 0xa0 (wrapPrimitive errorClass (encodeInt errorCode)))
  rw [encodeServiceError] at element ⊢
  have first : confirmedErrorField ({}, false) 0x80 (encodeUint32 invokeID) =
      .ok ({ invokeID := invokeID }, true) := by
    simp only [confirmedErrorField, if_true, decodeUnsigned_encodeUint32]
  have second : confirmedErrorField ({ invokeID := invokeID }, true) 0xa2
      (encodeTLV 0xa0 (wrapPrimitive errorClass (encodeInt errorCode))) =
        .ok (⟨invokeID, errorClass, errorCode⟩, true) := by
    have other : (0xa2 : UInt8) ≠ 0x80 := by decide
    simp only [confirmedErrorField, other, if_false, if_true,
      parseServiceError_encode nonneg small fits]
  have nonempty := two_le_tlvSize (encodeUint32 invokeID).length
  rw [decodeConfirmedError, if_neg (by simp only [List.length_append, length_encodeTLV]; omega),
    decodeFields_pair _ _ (by omega) (by omega), first]
  simp only [Except.bind, second, if_true]

theorem decodeRejectPDU_encode (invokeID : UInt32) {rejectType rejectReason : Int64}
    (above : 1 ≤ rejectType.toInt) (below : rejectType.toInt ≤ 11) (fits : InInt32 rejectReason) :
    decodeRejectPDU (encodeTLV 0x80 (encodeUint32 invokeID) ++
        wrapPrimitive rejectType (encodeInt rejectReason)) =
      .ok ⟨invokeID, true, rejectType, rejectReason⟩ := by
  have id := (encodeUint32_spec invokeID).2.2
  have reason := length_encodeInt_le rejectReason
  have most : maxContent = 16777216 := rfl
  obtain ⟨tag, number⟩ := choiceNumber_wrapPrimitive (show 0 ≤ rejectType.toInt by omega)
    (show rejectType.toInt ≤ 30 by omega)
  rw [wrapPrimitive_eq_encodeTLV (by omega)]
  generalize (0x80 ||| UInt8.ofNat rejectType.toInt.toNat) = choice at tag number ⊢
  have first : rejectField ({}, false) 0x80 (encodeUint32 invokeID) =
      .ok ({ invokeID := invokeID, hasInvokeID := true }, false) := by
    simp only [rejectField, if_true, decodeUnsigned_encodeUint32]
  have second : rejectField ({ invokeID := invokeID, hasInvokeID := true }, false) choice
      (encodeInt rejectReason) = .ok (⟨invokeID, true, rejectType, rejectReason⟩, true) := by
    have other : choice ≠ 0x80 := by
      rintro rfl
      rw [show (0x80 : UInt8).toNat = 0x80 from rfl] at tag
      omega
    rw [rejectField, if_neg other, if_pos (by omega)]
    simp only [choiceCode_encodeInt _ fits, number]
  have nonempty := two_le_tlvSize (encodeUint32 invokeID).length
  rw [decodeRejectPDU, if_neg (by simp only [List.length_append, length_encodeTLV]; omega),
    decodeFields_pair _ _ (by omega) (by omega), first]
  simp only [Except.bind, second, if_true]

/-- The client takes a confirmed response apart into what the server put into it. -/
theorem confirmedResponse_arrives (invokeID : UInt32) (small : tagNum.toInt < 2 ^ 31)
    (constructed : Bool) (short : servicePayload.length < maxContent) :
    ∃ content,
      decodePdu (marshalConfirmedResponse invokeID tagNum constructed servicePayload) =
        .ok (.confirmedResponse, content) ∧
      decodeConfirmedResponse content =
        .ok ⟨invokeID, classifyServiceByTagNum tagNum.toInt.toNat,
          ⟨2, tagNum.toInt.toNat, constructed, servicePayload⟩⟩ ∧
      extractInvokeID content = .ok invokeID :=
  ⟨_, decodePdu_marshalConfirmedResponse _ _ _
      (length_requestContent_lt invokeID tagNum constructed short),
    decodeConfirmedResponse_requestContent _ small _ (short.trans (by decide)),
    extractInvokeID_int _ _⟩

theorem confirmedError_arrives (invokeID : UInt32) (nonneg : 0 ≤ errorClass.toInt)
    (small : errorClass.toInt ≤ 30) (fits : InInt32 errorCode) :
    ∃ content,
      decodePdu (marshalConfirmedError invokeID errorClass errorCode) =
        .ok (.confirmedError, content) ∧
      decodeConfirmedError content = .ok ⟨invokeID, errorClass, errorCode⟩ ∧
      extractInvokeID content = .ok invokeID := by
  have whole := length_marshalConfirmedError_le invokeID errorClass errorCode
  refine ⟨_, decodePdu_wrapConstructed (by decide) rfl ?_,
    decodeConfirmedError_encode _ nonneg small fits, extractInvokeID_uint32 _ _⟩
  have content := length_le_wrapConstructed 2 (encodeTLV 0x80 (encodeUint32 invokeID) ++
    encodeServiceError 0xa2 errorClass errorCode)
  exact (content.trans whole).trans_lt (by decide)

end Arrival

/-- Every confirmed PDU is read back by the side it is sent to: requests by the server, responses,
errors and rejects by the client, which finds the invoke ID of the three replies in front. -/
theorem envelopes_roundTrip (invokeID : UInt32) :
    (∀ (tagNum : Int64) (constructed : Bool) (payload : Octets), 0 ≤ tagNum.toInt →
      tagNum.toInt < 2 ^ 31 → payload.length < 2 ^ 24 →
      (∃ content,
        decodePdu (marshalConfirmedRequest invokeID tagNum constructed payload) =
          .ok (.confirmedRequest, content) ∧
        unmarshalConfirmedRequest content =
          .ok (invokeID, ⟨2, tagNum.toInt.toNat, constructed, payload⟩)) ∧
      ∃ content,
        decodePdu (marshalConfirmedResponse invokeID tagNum constructed payload) =
          .ok (.confirmedResponse, content) ∧
        decodeConfirmedResponse content =
          .ok ⟨invokeID, classifyServiceByTagNum tagNum.toInt.toNat,
            ⟨2, tagNum.toInt.toNat, constructed, payload⟩⟩ ∧
        extractInvokeID content = .ok invokeID) ∧
    (∀ errorClass errorCode : Int64, 0 ≤ errorClass.toInt → errorClass.toInt ≤ 30 →
      InInt32 errorCode → ∃ content,
        decodePdu (marshalConfirmedError invokeID errorClass errorCode) =
          .ok (.confirmedError, content) ∧
        decodeConfirmedError content = .ok ⟨invokeID, errorClass, errorCode⟩ ∧
        extractInvokeID content = .ok invokeID) ∧
    ∀ rejectType rejectReason : Int64, 1 ≤ rejectType.toInt → rejectType.toInt ≤ 11 →
      InInt32 rejectReason → ∃ content,
        decodePdu (marshalRejectPDU invokeID rejectType rejectReason) = .ok (.reject, content) ∧
        decodeRejectPDU content = .ok ⟨invokeID, true, rejectType, rejectReason⟩ ∧
        extractInvokeID content = .ok invokeID := by
  refine ⟨?service, ?error, ?reject⟩
  case service =>
    intro tagNum constructed payload _ small short
    have fits := length_requestContent_lt invokeID tagNum constructed short
    exact ⟨⟨_, decodePdu_marshalConfirmedRequest _ _ _ fits,
        unmarshalConfirmedRequest_requestContent _ small _ (short.trans (by decide))⟩,
      confirmedResponse_arrives invokeID small constructed short⟩
  case error =>
    intro errorClass errorCode nonneg small code
    exact confirmedError_arrives invokeID nonneg small code
  case reject =>
    intro rejectType rejectReason above below reason
    have whole := length_marshalRejectPDU_le invokeID rejectType rejectReason
    refine ⟨_, decodePdu_wrapConstructed (by decide) rfl ?_,
      decodeRejectPDU_encode _ above below reason,
      extractInvokeID_uint32 _ _⟩
    have content := length_le_wrapConstructed 4 (encodeTLV 0x80 (encodeUint32 invokeID) ++
      wrapPrimitive rejectType (encodeInt rejectReason))
    exact (content.trans whole).trans_lt (by decide)

/-- A file service has a long tag, and the largest invoke ID carries a zero octet in front. -/
theorem envelopes_roundTrip_fileOpen :
    (∃ content,
      decodePdu (marshalConfirmedResponse 0xffffffff 72 true [0x80, 0x01, 0x07]) =
        .ok (.confirmedResponse, content) ∧
      decodeConfirmedResponse content =
        .ok ⟨0xffffffff, .fileOpen, ⟨2, 72, true, [0x80, 0x01, 0x07]⟩⟩ ∧
      extractInvokeID content = .ok 0xffffffff) ∧
    ∃ content,
      decodePdu (marshalRejectPDU 0xffffffff 11 (-1)) = .ok (.reject, content) ∧
      decodeRejectPDU content = .ok ⟨0xffffffff, true, 11, -1⟩ ∧
      extractInvokeID content = .ok 0xffffffff :=
  ⟨((envelopes_roundTrip 0xffffffff).1 72 true [0x80, 0x01, 0x07] (by decide) (by decide)
      (by decide)).2,
    (envelopes_roundTrip 0xffffffff).2.2 11 (-1) (by decide) (by decide) (by decide)⟩

end GoMms.Codec
