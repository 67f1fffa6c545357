import GoMms.Codec.Request

/-!
# ACSE PDUs

`internal/acse`: the associate request and response with their parsers, and the two PDUs of a
release and an abort as far as the parser checks them. An AP-title is written and read by
`encoding/asn1`; everything else is the repository's own BER.

The parsers skip the fields they do not know, and a field that is repeated replaces its earlier
occurrence.
-/

namespace GoMms.Asn1

open Berutil

/-- `appendBase128Int`, without the buffer it appends to. A negative number takes no groups. -/
def appendBase128Int (n : Int64) : Octets :=
  if n < 0 then [] else appendBase128 n

/-- `Marshal` of an `ObjectIdentifier`. -/
def marshalObjectIdentifier : List Int64 → Except String Octets
  | first :: second :: rest =>
    if first > 2 ∨ (first < 2 ∧ second ≥ 40) then
      .error (structuralError "invalid object identifier")
    else
      .ok (encodeTLV 0x06 (appendBase128Int (first * 40 + second) ++ rest.flatMap appendBase128Int))
  | _ => .error (structuralError "invalid object identifier")

/-- The library reads the identifier back if it writes it, which it does not for arcs beyond
`2 ^ 31`. -/
def RoundTrips (oid : List Int64) : Prop :=
  ∀ octets, marshalObjectIdentifier oid = .ok octets →
    unmarshalObjectIdentifier octets = .ok (oid, [])

end GoMms.Asn1

namespace GoMms.Acse

open Berutil

/-- The kinds of APDU that `Parse` accepts. -/
inductive ApduType where
  | aarq
  | aare
  | rlrq
  | rlre
  | abrt
  deriving DecidableEq, Repr

namespace ApduType

def tag : ApduType → UInt8
  | aarq => 0x60
  | aare => 0x61
  | rlrq => 0x62
  | rlre => 0x63
  | abrt => 0x64

def string : ApduType → String
  | aarq => "AARQ"
  | aare => "AARE"
  | rlrq => "RLRQ"
  | rlre => "RLRE"
  | abrt => "ABRT"

end ApduType

def appContextMmsEncoded : Octets := [0x06, 0x05, 0x28, 0xca, 0x22, 0x02, 0x03]

def resultAccepted : Int64 := 0
def resultRejectedTransient : Int64 := 2

structure AARQParams where
  calledAPTitle : List Int64 := []
  calledAEQualifier : Int64 := 0
  callingAPTitle : List Int64 := []
  callingAEQualifier : Int64 := 0
  password : Octets := []
  deriving DecidableEq, Repr

inductive AuthMechanism where
  | none
  | password
  | unknown
  deriving DecidableEq, Repr

/-- The contents of the identifier 2.2.3.1. -/
def authMechPasswordOID : Octets := [0x52, 0x03, 0x01]

def tagAuthValueGraphicString : UInt8 := 0x80

structure AuthInfo where
  mechanism : AuthMechanism := .none
  mechanismOID : List Int64 := []
  password : Octets := []
  callingAPTitle : List Int64 := []
  callingAEQualifier : Option Int64 := none
  deriving DecidableEq, Repr

structure ParsedAARE where
  result : Int64
  userData : Octets := []
  deriving DecidableEq, Repr

structure ParsedAPDU where
  type : ApduType
  aare : Option ParsedAARE := none
  auth : AuthInfo := {}
  userData : Octets := []
  deriving DecidableEq, Repr

/-! ## Encoding -/

def encodeAEQualifier (val : Int64) : Octets := encodeTLV 0x02 (encodeInt val)

def marshalOID (oid : List Int64) : Except String Octets := Asn1.marshalObjectIdentifier oid

def encodeUserInformation (payload : Octets) : Octets :=
  let indirectRefTLV := encodeTLV 0x02 (encodeInt 3)
  let singleASN1 := encodeTLV 0xa0 payload
  encodeTLV 0xbe (encodeTLV 0x28 (indirectRefTLV ++ singleASN1))

/-- An AP-title in the field `titleTag` and its AE-qualifier in `qualifierTag`; both are left out
without a title. -/
def encodeEntity (label : String) (titleTag qualifierTag : UInt8) (title : List Int64)
    (qualifier : Int64) : Except String Octets :=
  if title.length > 0 then
    match marshalOID title with
    | .error text => .error ("acse: marshal " ++ label ++ " AP-title: " ++ text)
    | .ok oid =>
      .ok (encodeTLV titleTag oid ++ encodeTLV qualifierTag (encodeAEQualifier qualifier))
  else .ok []

/-- The authentication fields: requirements, mechanism and value. -/
def encodeAuthentication (password : Octets) : Octets :=
  if password.length > 0 then
    encodeTLV 0x8a [0x04, 0x80] ++ encodeTLV 0x8b authMechPasswordOID ++
      encodeTLV 0xac (encodeTLV 0x80 password)
  else []

def encodeAARQ (p : AARQParams) (mmsPayload : Octets) : Except String Octets :=
  match encodeEntity "called" 0xa2 0xa3 p.calledAPTitle p.calledAEQualifier with
  | .error text => .error text
  | .ok called =>
    match encodeEntity "calling" 0xa6 0xa7 p.callingAPTitle p.callingAEQualifier with
    | .error text => .error text
    | .ok calling =>
      let content := encodeTLV 0xa1 appContextMmsEncoded ++ called ++ calling ++
        encodeAuthentication p.password
      let content :=
        if mmsPayload.length > 0 then content ++ encodeUserInformation mmsPayload else content
      .ok (encodeTLV ApduType.aarq.tag content)

def encodeAARE (result : Int64) (mmsPayload : Octets) : Octets :=
  let content := encodeTLV 0xa1 appContextMmsEncoded
  let resultEnc := encodeTLV 0x02 (encodeInt result)
  let content := content ++ encodeTLV 0xa2 resultEnc
  let diag := encodeTLV 0xa1 (encodeTLV 0x02 [0x00])
  let content := content ++ encodeTLV 0xa3 diag
  let content :=
    if mmsPayload.length > 0 then content ++ encodeUserInformation mmsPayload else content
  encodeTLV ApduType.aare.tag content

/-! ## Parsing -/

/-- One field of an EXTERNAL; the payload is nil until one is found. -/
def externalField (extContent : Octets) (payload : Option Octets) (offset : Nat) :
    Except String (LoopStep (Option Octets)) :=
  match decodeTLVAt extContent offset with
  | .error text => .error ("acse: EXTERNAL field: " ++ text)
  | .ok tlv =>
    .ok (.next (if tlv.tag = 0xa0 then some tlv.content else payload) (offset + tlv.consumed))

def parseExternalPayload (data : Octets) : Except String Octets :=
  if data.length = 0 then .error "acse: empty user-information"
  else
    match decodeTLV data with
    | .error text => .error ("acse: EXTERNAL: " ++ text)
    | .ok (tag, extContent) =>
      if tag ≠ 0x28 then .error ("acse: expected EXTERNAL (0x28), got 0x" ++ hex02 tag)
      else
        match offsetLoop extContent.length (externalField extContent) none 0 with
        | .error text => .error text
        | .ok (none, _) => .error "acse: EXTERNAL missing single-ASN1-type (0xa0) encoding"
        | .ok (some payload, _) => .ok payload

/-- One field of an AARE. -/
def aareField (content : Octets) (aare : ParsedAARE) (offset : Nat) :
    Except String (LoopStep ParsedAARE) :=
  match decodeTLVAt content offset with
  | .error text => .error ("acse: AARE field: " ++ text)
  | .ok tlv =>
    let offset := offset + tlv.consumed
    if tlv.tag = 0xa2 then
      match decodeTLV tlv.content with
      | .error text => .error ("acse: AARE result: " ++ text)
      | .ok (_, resultInner) =>
        match decodeInteger resultInner with
        | .error text => .error ("acse: AARE result value: " ++ text)
        | .ok val => .ok (.next { aare with result := val } offset)
    else if tlv.tag = 0xbe then
      match parseExternalPayload tlv.content with
      | .error text => .error ("acse: AARE user-information: " ++ text)
      | .ok userData => .ok (.next { aare with userData := userData } offset)
    else .ok (.next aare offset)

def parseAARE (content : Octets) : Except String ParsedAARE :=
  match offsetLoop content.length (aareField content) { result := -1 } 0 with
  | .error text => .error text
  | .ok (aare, _) =>
    if aare.result = -1 then .error "acse: AARE missing required result field"
    else if aare.result < resultAccepted ∨ aare.result > resultRejectedTransient then
      .error ("acse: AARE invalid result value " ++ toString aare.result)
    else .ok aare

/-- The fields of an AARQ seen so far; the mechanism and the authentication value are kept as
they stand until all fields have been seen. -/
structure AARQFields where
  userData : Octets := []
  callingAPTitle : List Int64 := []
  callingAEQualifier : Option Int64 := none
  mechOIDRaw : Option Octets := none
  rawAuthValue : Option Octets := none
  deriving DecidableEq, Repr

/-- One field of an AARQ. -/
def aarqField (content : Octets) (fields : AARQFields) (offset : Nat) :
    Except String (LoopStep AARQFields) :=
  match decodeTLVAt content offset with
  | .error text => .error ("acse: AARQ field: " ++ text)
  | .ok tlv =>
    let offset := offset + tlv.consumed
    if tlv.tag = 0xa6 then
      match Asn1.unmarshalObjectIdentifier tlv.content with
      | .error text => .error ("acse: AARQ calling-AP-title: " ++ text)
      | .ok (oid, _) => .ok (.next { fields with callingAPTitle := oid } offset)
    else if tlv.tag = 0xa7 then
      match Asn1.unmarshalInt64 tlv.content with
      | .error text => .error ("acse: AARQ calling-AE-qualifier: " ++ text)
      | .ok (val, _) => .ok (.next { fields with callingAEQualifier := some val } offset)
    else if tlv.tag = 0x8b then
      .ok (.next { fields with mechOIDRaw := some tlv.content } offset)
    else if tlv.tag = 0xac then
      .ok (.next { fields with rawAuthValue := some tlv.content } offset)
    else if tlv.tag = 0xbe then
      match parseExternalPayload tlv.content with
      | .error text => .error text
      | .ok userData => .ok (.next { fields with userData := userData } offset)
    else .ok (.next fields offset)

def decodeImplicitOID (raw : Octets) : Except String (List Int64) :=
  match Asn1.unmarshalObjectIdentifier (encodeTLV 0x06 raw) with
  | .error text => .error text
  | .ok (oid, _) => .ok oid

def classifyMechanism (oid : Octets) : AuthMechanism :=
  if oid = authMechPasswordOID then .password else .unknown

def parsePasswordAuthValue (data : Octets) : Except String Octets :=
  if data.length = 0 then .error "acse: empty authentication-value"
  else
    match decodeTLVAt data 0 with
    | .error text => .error ("acse: malformed authentication-value: " ++ text)
    | .ok tlv =>
      if tlv.tag ≠ tagAuthValueGraphicString then
        .error ("acse: authentication-value: expected graphicString tag 0x" ++
          hex02 tagAuthValueGraphicString ++ ", got 0x" ++ hex02 tlv.tag)
      else if tlv.consumed ≠ data.length then
        .error ("acse: authentication-value: " ++
          toString ((data.length : Int) - tlv.consumed) ++ " trailing bytes after graphicString")
      else .ok tlv.content

/-- What the fields say about authentication. -/
def AARQFields.authInfo (fields : AARQFields) : Except String AuthInfo :=
  let auth : AuthInfo :=
    { callingAPTitle := fields.callingAPTitle, callingAEQualifier := fields.callingAEQualifier }
  match fields.mechOIDRaw with
  | none =>
    if fields.rawAuthValue.isSome then
      .error "acse: AARQ authentication-value without mechanism-name"
    else .ok auth
  | some mechOIDRaw =>
    match decodeImplicitOID mechOIDRaw with
    | .error text => .error ("acse: AARQ mechanism OID: " ++ text)
    | .ok oid =>
      let auth := { auth with mechanismOID := oid, mechanism := classifyMechanism mechOIDRaw }
      match auth.mechanism, fields.rawAuthValue with
      | .password, none => .error "acse: AARQ password mechanism without authentication-value"
      | .password, some rawAuthValue =>
        match parsePasswordAuthValue rawAuthValue with
        | .error text => .error text
        | .ok pw => .ok { auth with password := pw }
      | _, _ => .ok auth

def parseAARQ (content : Octets) : Except String (Octets × AuthInfo) :=
  match offsetLoop content.length (aarqField content) {} 0 with
  | .error text => .error text
  | .ok (fields, _) =>
    match fields.authInfo with
    | .error text => .error text
    | .ok auth => .ok (fields.userData, auth)

/-- `validateRLRQ` and `validateABRT`: a single field with tag 0x80; `name` and `field` are the
words of their errors. -/
def validateField (name field : String) (content : Octets) : Except String Unit :=
  match decodeTLVAt content 0 with
  | .error text => .error ("acse: " ++ name ++ " field: " ++ text)
  | .ok tlv =>
    if tlv.tag ≠ 0x80 then
      .error ("acse: " ++ name ++ " unexpected field tag 0x" ++ hex02 tlv.tag ++
        ", expected 0x80 (" ++ field ++ ")")
    else if tlv.consumed ≠ content.length then
      .error ("acse: " ++ name ++ " " ++ toString ((content.length : Int) - tlv.consumed) ++
        " trailing bytes after " ++ field)
    else .ok ()

def validateRLRQ (content : Octets) : Except String Unit :=
  if content.length = 0 then .ok () else validateField "RLRQ" "reason" content

def validateABRT (content : Octets) : Except String Unit :=
  if content.length = 0 then .error "acse: ABRT missing abort-source"
  else validateField "ABRT" "abort-source" content

def parse (data : Octets) : Except String ParsedAPDU :=
  match data with
  | tag :: _ :: _ =>
    match decodeTLVExact data with
    | .error text => .error ("acse: APDU outer: " ++ text)
    | .ok (_, content) =>
      if tag = ApduType.aarq.tag then
        match parseAARQ content with
        | .error text => .error text
        | .ok (userData, auth) => .ok { type := .aarq, auth := auth, userData := userData }
      else if tag = ApduType.aare.tag then
        match parseAARE content with
        | .error text => .error text
        | .ok aare => .ok { type := .aare, aare := some aare, userData := aare.userData }
      else if tag = ApduType.rlrq.tag then
        match validateRLRQ content with
        | .error text => .error text
        | .ok () => .ok { type := .rlrq }
      else if tag = ApduType.rlre.tag then .ok { type := .rlre }
      else if tag = ApduType.abrt.tag then
        match validateABRT content with
        | .error text => .error text
        | .ok () => .ok { type := .abrt }
      else .error ("acse: unknown APDU tag 0x" ++ hex02 tag)
  | _ => .error ("acse: APDU too short (" ++ toString data.length ++ " bytes)")

end GoMms.Acse
