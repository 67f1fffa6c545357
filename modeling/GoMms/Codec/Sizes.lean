import GoMms.Codec.Envelope

/-!
# Sizes of the reply PDUs

How many octets the confirmed replies take. A response grows with its payload; an error, a
cancel error or a reject is short whatever its class and code.
-/

namespace GoMms.Codec

open Berutil

/-- The octets of a context tag. -/
def tagSize (tagNum : Int64) : Nat :=
  if tagNum.toInt.toNat ≤ 30 then 1 else 1 + (encodeTagNumber tagNum.toInt.toNat).length

theorem length_wrapContextTag (tagNum : Int64) (constructed : Bool) (content : Octets) :
    (wrapContextTag tagNum constructed content).length =
      tagSize tagNum + lengthSize content.length + content.length := by
  unfold wrapContextTag tagSize
  dsimp only
  split <;> simp <;> omega

theorem tagSize_le {tagNum : Int64} {groups : Nat}
    (fits : tagNum.toInt.toNat / 128 < 128 ^ groups) :
    tagSize tagNum ≤ groups + 2 := by
  have long := length_continuation_le fits
  unfold tagSize encodeTagNumber
  split
  · omega
  · simp only [List.length_append, List.length_singleton]
    omega

/-- No Go int needs more than nine groups. -/
theorem tagSize_le_ten (tagNum : Int64) : tagSize tagNum ≤ 10 := by
  have word : tagNum.toInt < 2 ^ 63 := tagNum.toInt_lt
  exact tagSize_le (show tagNum.toInt.toNat / 128 < 128 ^ 8 by omega)

theorem lengthSize_short {length : Nat} (short : length < 128) : lengthSize length = 1 :=
  if_pos short

/-- The octets of a confirmed response. -/
def responseSize (idLength tagLength payloadLength : Nat) : Nat :=
  tlvSize (tlvSize idLength + (tagLength + lengthSize payloadLength + payloadLength))

theorem length_marshalConfirmedResponse (invokeID : UInt32) (tagNum : Int64) (constructed : Bool)
    (servicePayload : Octets) :
    (marshalConfirmedResponse invokeID tagNum constructed servicePayload).length =
      responseSize (encodeInt (Int64.ofNat invokeID.toNat)).length (tagSize tagNum)
        servicePayload.length := by
  have one : tagSize 1 = 1 := by decide
  rw [marshalConfirmedResponse, wrapConstructed, length_wrapContextTag, List.length_append,
    length_encodeTLV, length_wrapContextTag, one]
  rfl

theorem responseSize_mono (idLength tagLength : Nat) {short long : Nat} (le : short ≤ long) :
    responseSize idLength tagLength short ≤ responseSize idLength tagLength long := by
  have header := lengthSize_mono le
  apply tlvSize_mono
  omega

/-- The service error element is short enough for one-octet lengths. -/
theorem length_encodeServiceError_le (tag : UInt8) (errorClass errorCode : Int64) :
    (encodeServiceError tag errorClass errorCode).length ≤ 23 := by
  have code := length_encodeInt_le errorCode
  have number := tagSize_le_ten errorClass
  have inner : (wrapPrimitive errorClass (encodeInt errorCode)).length ≤ 19 := by
    rw [wrapPrimitive, length_wrapContextTag, lengthSize_short (by omega)]
    omega
  rw [encodeServiceError, length_encodeTLV, length_encodeTLV]
  rw [tlvSize_short (by omega : (wrapPrimitive errorClass (encodeInt errorCode)).length < 128),
    tlvSize_short (by omega)]
  omega

theorem length_marshalConfirmedError_le (invokeID : UInt32) (errorClass errorCode : Int64) :
    (marshalConfirmedError invokeID errorClass errorCode).length ≤ 32 := by
  have two : tagSize 2 = 1 := by decide
  have idLength := (encodeUint32_spec invokeID).2.2
  have element := length_encodeServiceError_le 0xa2 errorClass errorCode
  rw [marshalConfirmedError, wrapConstructed, length_wrapContextTag, two, List.length_append,
    length_encodeTLV, tlvSize_short (by omega), lengthSize_short (by omega)]
  omega

theorem length_marshalRejectPDU_le (invokeID : UInt32) (rejectType rejectReason : Int64) :
    (marshalRejectPDU invokeID rejectType rejectReason).length ≤ 28 := by
  have four : tagSize 4 = 1 := by decide
  have idLength := (encodeUint32_spec invokeID).2.2
  have reason := length_encodeInt_le rejectReason
  have number := tagSize_le_ten rejectType
  rw [marshalRejectPDU, wrapConstructed, length_wrapContextTag, four, List.length_append,
    length_encodeTLV, wrapPrimitive, length_wrapContextTag,
    lengthSize_short (by omega : (encodeInt rejectReason).length < 128),
    tlvSize_short (by omega), lengthSize_short (by omega)]
  omega

end GoMms.Codec
