import GoMms.Berutil.Integer
import GoMms.Berutil.ObjectIdentifier
import GoMms.Berutil.Tlv
import GoMms.Foundation.Asn1

/-!
# MMS PDU envelopes

The outer layer of an MMS PDU: a context tag that names the kind of PDU and, inside a
confirmed PDU, the invoke ID that pairs an answer with its request. Encoders are those of
`internal/codec` and `internal/asn1util`; decoders those of `internal/codec` and `internal/pdu`.
-/

namespace GoMms.Codec

open Octets Berutil

/-! ## Context tags -/

/-- `encodeTagNumber`: base 128, most significant group first. -/
def encodeTagNumber (number : Nat) : Octets :=
  continuation (number / 128) ++ [UInt8.ofNat (number % 128)]

/-- `WrapContextTag`. A negative tag number is encoded as tag 0. -/
def wrapContextTag (tagNum : Int64) (constructed : Bool) (content : Octets) : Octets :=
  let number := tagNum.toInt.toNat
  let lead : UInt8 := if constructed then 0xa0 else 0x80
  if number ≤ 30 then (lead ||| UInt8.ofNat number) :: appendLength content.length ++ content
  else (lead ||| 0x1f) :: encodeTagNumber number ++ appendLength content.length ++ content

def wrapConstructed (tagNum : Int64) (content : Octets) : Octets :=
  wrapContextTag tagNum true content

def wrapPrimitive (tagNum : Int64) (content : Octets) : Octets :=
  wrapContextTag tagNum false content

/-! ## Marshalling -/

def marshalConfirmedResponse (invokeID : UInt32) (tagNum : Int64) (constructed : Bool)
    (servicePayload : Octets) : Octets :=
  wrapConstructed 1 (encodeTLV 0x02 (encodeInt (Int64.ofNat invokeID.toNat)) ++
    wrapContextTag tagNum constructed servicePayload)

/-- The error element of a confirmed or cancel error: the class selects the context tag of the
code. -/
def encodeServiceError (tag : UInt8) (errorClass errorCode : Int64) : Octets :=
  encodeTLV tag (encodeTLV 0xa0 (wrapPrimitive errorClass (encodeInt errorCode)))

def marshalConfirmedError (invokeID : UInt32) (errorClass errorCode : Int64) : Octets :=
  wrapConstructed 2 (encodeTLV 0x80 (encodeUint32 invokeID) ++
    encodeServiceError 0xa2 errorClass errorCode)

def marshalRejectPDU (invokeID : UInt32) (rejectType rejectReason : Int64) : Octets :=
  wrapConstructed 4 (encodeTLV 0x80 (encodeUint32 invokeID) ++
    wrapPrimitive rejectType (encodeInt rejectReason))

def marshalCancelError (originalInvokeID : UInt32) (errorClass errorCode : Int64) : Octets :=
  wrapConstructed 7 (encodeTLV 0x80 (encodeUint32 originalInvokeID) ++
    encodeServiceError 0xa1 errorClass errorCode)

def marshalConcludeResponse : Octets := wrapPrimitive 12 []

/-! ## Unmarshalling -/

/-- `UnwrapPdu`: the tag octet, rebuilt from the parsed identifier, and the contents. -/
def unwrapPdu (data : Octets) : Except String (UInt8 × Octets) :=
  match Asn1.unmarshalRawValue data with
  | .error text => .error ("codec: unwrap PDU: asn1util: unmarshal raw: " ++ text)
  | .ok (raw, rest) =>
    if rest.length ≠ 0 then
      .error ("codec: unwrap PDU: " ++ toString rest.length ++ " trailing bytes")
    else if raw.tag > 30 then
      .error ("codec: unwrap PDU: tag number " ++ toString raw.tag ++ " is not an MMS PDU")
    else
      let tag := UInt8.ofNat (raw.tagClass % 4) <<< 6 ||| UInt8.ofNat (raw.tag % 32)
      .ok (if raw.isCompound then tag ||| 0x20 else tag, raw.bytes)

inductive PduKind where
  | confirmedRequest
  | confirmedResponse
  | confirmedError
  | unconfirmed
  | reject
  | initiateRequest
  | initiateResponse
  | initiateError
  | concludeRequest
  | concludeResponse
  | concludeError
  | cancelRequest
  | cancelResponse
  | cancelError
  deriving DecidableEq, Repr

def PduKind.string : PduKind → String
  | .confirmedRequest => "ConfirmedRequest"
  | .confirmedResponse => "ConfirmedResponse"
  | .confirmedError => "ConfirmedError"
  | .unconfirmed => "Unconfirmed"
  | .reject => "Reject"
  | .initiateRequest => "InitiateRequest"
  | .initiateResponse => "InitiateResponse"
  | .initiateError => "InitiateError"
  | .concludeRequest => "ConcludeRequest"
  | .concludeResponse => "ConcludeResponse"
  | .concludeError => "ConcludeError"
  | .cancelRequest => "CancelRequest"
  | .cancelResponse => "CancelResponse"
  | .cancelError => "CancelError"

def classifyTag (tag : UInt8) : Except String PduKind :=
  match tag with
  | 0xa0 => .ok .confirmedRequest
  | 0xa1 => .ok .confirmedResponse
  | 0xa2 => .ok .confirmedError
  | 0xa3 => .ok .unconfirmed
  | 0xa4 => .ok .reject
  | 0xa8 => .ok .initiateRequest
  | 0xa9 => .ok .initiateResponse
  | 0xaa => .ok .initiateError
  | 0x8b => .ok .concludeRequest
  | 0x8c => .ok .concludeResponse
  | 0x8d => .ok .concludeError
  | 0x85 => .ok .cancelRequest
  | 0x86 => .ok .cancelResponse
  | 0xa7 => .ok .cancelError
  | other => .error ("pdu: unknown MMS PDU tag 0x" ++ hex02 other)

def decodePdu (data : Octets) : Except String (PduKind × Octets) :=
  match unwrapPdu data with
  | .error text => .error text
  | .ok (tag, content) =>
    match classifyTag tag with
    | .error text => .error text
    | .ok kind => .ok (kind, content)

/-- `unmarshalConfirmedEnvelope`: the invoke ID and the service element, nothing after it. -/
def unmarshalConfirmedEnvelope (content : Octets) : Except String (UInt32 × Asn1.RawValue) :=
  match Asn1.unmarshalInt64 content with
  | .error text => .error ("codec: unmarshal invoke ID: " ++ text)
  | .ok (invokeInt, rest) =>
    if invokeInt < 0 ∨ invokeInt > 4294967295 then
      .error ("codec: invoke ID " ++ toString invokeInt ++ " out of Unsigned32 range")
    else
      match Asn1.unmarshalRawValue rest with
      | .error text => .error ("codec: unmarshal service: " ++ text)
      | .ok (serviceRaw, tail) =>
        if tail.length ≠ 0 then
          .error ("codec: " ++ toString tail.length ++ " trailing bytes after confirmed envelope")
        else .ok (UInt32.ofNat invokeInt.toInt.toNat, serviceRaw)

def unmarshalConfirmedRequest (content : Octets) : Except String (UInt32 × Asn1.RawValue) :=
  unmarshalConfirmedEnvelope content

/-- `ExtractInvokeID`: the invoke ID a client reads from an answer to dispatch it. -/
def extractInvokeID (content : Octets) : Except String UInt32 :=
  if content.length = 0 then .error "pdu: extract invoke ID: empty content"
  else
    match decodeTLVAt content 0 with
    | .error text => .error ("pdu: extract invoke ID: " ++ text)
    | .ok tlv =>
      if tlv.tag = 0x02 ∨ tlv.tag = 0x80 then
        match decodeUnsigned tlv.content with
        | .error text => .error ("pdu: extract invoke ID value: " ++ text)
        | .ok id => .ok id
      else .error ("pdu: extract invoke ID: unexpected tag 0x" ++ hex02 tlv.tag)

/-! ## Answers carry their invoke ID -/

/-- `pdu` is an MMS PDU with context tag `kind` from whose contents a client extracts
`invokeID`. -/
def Carries (kind : Int64) (invokeID : UInt32) (pdu : Octets) : Prop :=
  ∃ content, pdu = wrapConstructed kind content ∧ extractInvokeID content = .ok invokeID

/-- Whatever follows it, a leading record that holds the shortest form of an invoke ID is read
back. -/
theorem extractInvokeID_append {tag : UInt8} {octets : Octets} {invokeID : UInt32}
    (known : tag = 0x02 ∨ tag = 0x80) (minimal : IsMinimal octets)
    (same : twosValue octets = invokeID.toNat) (short : octets.length < maxContent)
    (rest : Octets) : extractInvokeID (encodeTLV tag octets ++ rest) = .ok invokeID := by
  have record := decodeTLVAt_first tag short rest
  have filled : (encodeTLV tag octets ++ rest).length ≠ 0 := by simp [encodeTLV]
  simp only [extractInvokeID, if_neg filled, record, if_pos known, decodeUnsigned_eq minimal same]

theorem extractInvokeID_uint32 (invokeID : UInt32) (rest : Octets) :
    extractInvokeID (encodeTLV 0x80 (encodeUint32 invokeID) ++ rest) = .ok invokeID := by
  obtain ⟨minimal, same, short⟩ := encodeUint32_spec invokeID
  exact extractInvokeID_append (.inr rfl) minimal same (Nat.lt_of_le_of_lt short (by decide)) rest

/-- A 32-bit word is unchanged as a Go `int`. -/
theorem toInt_ofNat_uint32 (word : UInt32) : (Int64.ofNat word.toNat).toInt = word.toNat :=
  Int64.toInt_ofNat_of_lt (Nat.lt_trans word.toNat_lt (by decide))

theorem extractInvokeID_int (invokeID : UInt32) (rest : Octets) :
    extractInvokeID (encodeTLV 0x02 (encodeInt (Int64.ofNat invokeID.toNat)) ++ rest) =
      .ok invokeID := by
  apply extractInvokeID_append (.inl rfl) (isMinimal_encodeInt _)
  · rw [twosValue_encodeInt, toInt_ofNat_uint32]
  · exact Nat.lt_of_le_of_lt (length_encodeInt_le _) (by decide)

theorem carries_confirmedResponse (invokeID : UInt32) (tagNum : Int64) (constructed : Bool)
    (servicePayload : Octets) :
    Carries 1 invokeID (marshalConfirmedResponse invokeID tagNum constructed servicePayload) :=
  ⟨_, rfl, extractInvokeID_int invokeID _⟩

theorem carries_confirmedError (invokeID : UInt32) (errorClass errorCode : Int64) :
    Carries 2 invokeID (marshalConfirmedError invokeID errorClass errorCode) :=
  ⟨_, rfl, extractInvokeID_uint32 invokeID _⟩

theorem carries_cancelError (invokeID : UInt32) (errorClass errorCode : Int64) :
    Carries 7 invokeID (marshalCancelError invokeID errorClass errorCode) :=
  ⟨_, rfl, extractInvokeID_uint32 invokeID _⟩

end GoMms.Codec
