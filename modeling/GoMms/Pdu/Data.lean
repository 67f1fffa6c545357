import GoMms.Berutil.ObjectIdentifier
import GoMms.Pdu.Real

/-!
# The MMS Data codec

`DataValue`, `MarshalData` and `UnmarshalDataElement` of `internal/pdu/data.go`. The source's
record is populated according to its tag; here each tag is a constructor with the fields it
populates. The decoder's depth counter appears as the number of levels it may still enter.
-/

namespace GoMms.Pdu

open Octets Berutil

inductive DataValue where
  | accessError (errCode : Int64)
  | array (elements : List DataValue)
  | struct (elements : List DataValue)
  | boolean (value : Bool)
  | bitString (bytes : Octets) (bitLen : Int64)
  | integer (value : Int64)
  | unsigned (value : UInt64)
  | float (bits : UInt64) (wide : Bool)
  | real (bits : UInt64)
  | octetString (bytes : Octets)
  | visibleString (text : Octets)
  | generalizedTime (time : Instant)
  | binaryTime (msEpoch : Int64)
  | bcd (value : Int64)
  | booleanArray (bytes : Octets) (bitLen : Int64)
  | objectIdentifier (oid : List Int64)
  | mmsString (text : Octets)
  | utcTime (time : Instant) (quality : UInt8)

def DataValue.tag : DataValue → UInt8
  | .accessError _ => 0x80
  | .array _ => 0xa1
  | .struct _ => 0xa2
  | .boolean _ => 0x83
  | .bitString _ _ => 0x84
  | .integer _ => 0x85
  | .unsigned _ => 0x86
  | .float _ _ => 0x87
  | .real _ => 0x88
  | .octetString _ => 0x89
  | .visibleString _ => 0x8a
  | .generalizedTime _ => 0x8b
  | .binaryTime _ => 0x8c
  | .bcd _ => 0x8d
  | .booleanArray _ _ => 0x8e
  | .objectIdentifier _ => 0x8f
  | .mmsString _ => 0x90
  | .utcTime _ _ => 0x91

def errMmsStringUTF8 : String := "pdu: mms string is not valid UTF-8"

def maxDataNestingDepth : Nat := 64

def maxAccessResults : Nat := 65536

section Codec

variable (runtime : Runtime)

/-! ## Encoding -/

mutual

/-- The content `MarshalData` wraps in the tag of the value. -/
def marshalContent : DataValue → Except String Octets
  | .boolean value => .ok [if value then 0xff else 0x00]
  | .integer value => .ok (encodeSignedInt value)
  | .unsigned value => .ok (encodeUnsignedInt value)
  | .float bits wide => .ok (encodeFloat runtime bits wide)
  | .bitString bytes bitLen => .ok (encodeBitString bytes bitLen)
  | .octetString bytes => .ok bytes
  | .visibleString text => .ok text
  | .mmsString text => if utf8Valid text then .ok text else .error errMmsStringUTF8
  | .utcTime time quality => encodeUTCTime runtime time quality
  | .binaryTime msEpoch => encodeBinaryTimeChecked runtime msEpoch
  | .real bits => .ok (encodeASN1Real bits)
  | .booleanArray bytes bitLen => .ok (encodeBitString bytes bitLen)
  | .objectIdentifier oid =>
    match encodeObjectIdentifier oid with
    | .error text => .error ("pdu: object identifier: " ++ text)
    | .ok content => .ok content
  | .generalizedTime time => .ok (runtime.formatGeneralizedTime time)
  | .bcd value => .ok (encodeSignedInt value)
  | .array elements => marshalDataList elements
  | .struct elements => marshalDataList elements
  | .accessError errCode =>
    if errCode < 0 then
      .error ("pdu: negative DataAccessError code " ++ toString errCode)
    else .ok (encodeUnsignedInt errCode.toUInt64)

/-- `MarshalDataList`, the encodings one after another. -/
def marshalDataList : List DataValue → Except String Octets
  | [] => .ok []
  | value :: rest =>
    match marshalContent value with
    | .error text => .error text
    | .ok content =>
      match marshalDataList rest with
      | .error text => .error text
      | .ok octets => .ok (encodeTLV value.tag content ++ octets)

end

def marshalData (value : DataValue) : Except String Octets :=
  match marshalContent runtime value with
  | .error text => .error text
  | .ok content => .ok (encodeTLV value.tag content)

/-! ## Decoding -/

/-- One pass of the element loop, with `read` the element decoder one level down. -/
def accessResult (read : Octets → Nat → Except String (DataValue × Nat)) (data : Octets)
    (results : List DataValue) (offset : Nat) : Except String (LoopStep (List DataValue)) :=
  match read data offset with
  | .error text => .error ("pdu: access result [" ++ toString results.length ++ "]: " ++ text)
  | .ok (value, consumed) =>
    let results := results ++ [value]
    if results.length > maxAccessResults then
      .error ("pdu: access results count " ++ toString results.length ++ " exceeds maximum " ++
        toString maxAccessResults)
    else .ok (.next results (offset + consumed))

/-- `unmarshalAccessResultsWithDepth`. -/
def accessResults (read : Octets → Nat → Except String (DataValue × Nat)) (data : Octets) :
    Except String (List DataValue) :=
  match offsetLoop data.length (accessResult read data) [] 0 with
  | .error text => .error text
  | .ok (results, offset) =>
    if offset ≠ data.length then
      .error ("pdu: " ++ toString ((data.length : Int) - offset) ++
        " trailing bytes in access results")
    else .ok results

/-- `decodeDataContentWithDepth`, with `read` the element decoder one level down. -/
def decodeDataContent (read : Octets → Nat → Except String (DataValue × Nat)) (tag : UInt8)
    (content : Octets) : Except String DataValue :=
  match tag with
  | 0x83 =>
    match content with
    | [octet] => .ok (.boolean (octet != 0))
    | _ => .error ("pdu: boolean length " ++ toString content.length ++ ", want 1")
  | 0x85 =>
    match decodeSignedInt content with
    | .error text => .error ("pdu: integer: " ++ text)
    | .ok value => .ok (.integer value)
  | 0x86 =>
    match decodeUnsignedInt content with
    | .error text => .error ("pdu: unsigned: " ++ text)
    | .ok value => .ok (.unsigned value)
  | 0x87 =>
    match decodeFloat runtime content with
    | .error text => .error ("pdu: float: " ++ text)
    | .ok (bits, wide) => .ok (.float bits wide)
  | 0x84 =>
    match decodeBitString content with
    | .error text => .error ("pdu: bit string: " ++ text)
    | .ok (bytes, bitLen) => .ok (.bitString bytes bitLen)
  | 0x88 =>
    match decodeASN1Real runtime content with
    | .error text => .error ("pdu: real: " ++ text)
    | .ok bits => .ok (.real bits)
  | 0x89 => .ok (.octetString content)
  | 0x8a => .ok (.visibleString content)
  | 0x90 => if utf8Valid content then .ok (.mmsString content) else .error errMmsStringUTF8
  | 0x91 =>
    match decodeUTCTime content with
    | .error text => .error ("pdu: utc time: " ++ text)
    | .ok (time, quality) => .ok (.utcTime time quality)
  | 0x8c =>
    match decodeBinaryTime content with
    | .error text => .error ("pdu: binary time: " ++ text)
    | .ok msEpoch => .ok (.binaryTime msEpoch)
  | 0x8f =>
    match decodeObjectIdentifier content with
    | .error text => .error ("pdu: object identifier: " ++ text)
    | .ok oid => .ok (.objectIdentifier oid)
  | 0x8b =>
    match runtime.parseGeneralizedTime content with
    | .error text => .error ("pdu: generalized time: " ++ text)
    | .ok time => .ok (.generalizedTime time)
  | 0x8d =>
    match decodeSignedInt content with
    | .error text => .error ("pdu: bcd integer: " ++ text)
    | .ok value => .ok (.bcd value)
  | 0x8e =>
    match decodeBitString content with
    | .error text => .error ("pdu: boolean array: " ++ text)
    | .ok (bytes, bitLen) => .ok (.booleanArray bytes bitLen)
  | 0xa1 =>
    match accessResults read content with
    | .error text => .error text
    | .ok elements => .ok (.array elements)
  | 0xa2 =>
    match accessResults read content with
    | .error text => .error text
    | .ok elements => .ok (.struct elements)
  | 0x80 =>
    match decodeInteger content with
    | .error text => .error ("pdu: data access error: " ++ text)
    | .ok code => .ok (.accessError code)
  | _ => .error ("pdu: unknown Data tag 0x" ++ hex02 tag)

/-- `unmarshalDataElementWithDepth` at depth `maxDataNestingDepth + 1 - levels`: the decoder
may enter `levels` more levels, and reaches the depth limit when none is left. -/
def unmarshalDataElementWithDepth :
    (levels : Nat) → (data : Octets) → (offset : Nat) → Except String (DataValue × Nat)
  | 0, _, _ =>
    .error ("pdu: data nesting depth " ++ toString (maxDataNestingDepth + 1) ++
      " exceeds maximum " ++ toString maxDataNestingDepth)
  | levels + 1, data, offset =>
    match decodeTLVAt data offset with
    | .error text => .error ("pdu: data element: " ++ text)
    | .ok tlv =>
      match decodeDataContent runtime (unmarshalDataElementWithDepth levels) tlv.tag
        tlv.content with
      | .error text => .error text
      | .ok value => .ok (value, tlv.consumed)

def unmarshalDataElement (data : Octets) (offset : Nat) : Except String (DataValue × Nat) :=
  unmarshalDataElementWithDepth runtime (maxDataNestingDepth + 1) data offset

def unmarshalAccessResults (data : Octets) : Except String (List DataValue) :=
  accessResults (unmarshalDataElementWithDepth runtime (maxDataNestingDepth + 1)) data

end Codec

end GoMms.Pdu
