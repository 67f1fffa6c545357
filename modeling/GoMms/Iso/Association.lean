import GoMms.Iso.Acse
import GoMms.Iso.Framing

/-!
# Association

`internal/isostack` while an association is set up: an MMS initiate PDU travels in an ACSE PDU
inside a connect PPDU inside a session SPDU. What one side puts in, the other side takes out: the
payload, the password and the calling entity of a request, and the payload of a response.
-/

namespace GoMms.Acse

open Berutil

/-! ## User information -/

theorem parseExternalPayload_encode {payload : Octets}
    (fits : (encodeTLV 0x02 (encodeInt 3) ++ encodeTLV 0xa0 payload).length < maxContent) :
    parseExternalPayload (encodeTLV 0x28 (encodeTLV 0x02 (encodeInt 3) ++ encodeTLV 0xa0 payload)) =
      .ok payload := by
  have small : ∀ record ∈ [((0x02 : UInt8), encodeInt 3), (0xa0, payload)],
      record.2.length < maxContent :=
    length_lt_of_records (by simpa using fits)
  have loop := offsetLoop_records
    (fun found record => if record.1 = 0xa0 then some record.2 else found) externalField
    (fun _ _ => True) (fun data offset found record rest _ read => ?_) small none trivial
  · have filled := two_le_tlvSize (encodeTLV 0x02 (encodeInt 3) ++ encodeTLV 0xa0 payload).length
    simp only [encodeFields_cons, encodeFields_nil, List.append_nil] at loop
    rw [parseExternalPayload, if_neg (by rw [length_encodeTLV]; omega),
      decodeTLV_encodeTLV 0x28 fits]
    simp only [ne_eq, not_true_eq_false, if_false, loop]
    rfl
  · exact ⟨by simp only [externalField, read], trivial⟩

/-- The field with the user information; there is none without a payload. -/
def infoRecords (payload : Octets) : List (UInt8 × Octets) :=
  if payload.length > 0 then
    [(0xbe, encodeTLV 0x28 (encodeTLV 0x02 (encodeInt 3) ++ encodeTLV 0xa0 payload))]
  else []

/-! ## Requests -/

/-- The fields of an AP-title and its AE-qualifier. -/
def entityRecords (titleTag qualifierTag : UInt8) (title : List Int64) (oid : Octets)
    (qualifier : Int64) : List (UInt8 × Octets) :=
  if title.length > 0 then [(titleTag, oid), (qualifierTag, encodeAEQualifier qualifier)] else []

def authRecords (password : Octets) : List (UInt8 × Octets) :=
  if password.length > 0 then
    [(0x8a, [0x04, 0x80]), (0x8b, authMechPasswordOID), (0xac, encodeTLV 0x80 password)]
  else []

/-- What the server learns about its client from a request. -/
def AARQParams.authInfo (p : AARQParams) : AuthInfo where
  mechanism := if p.password.length > 0 then .password else .none
  mechanismOID := if p.password.length > 0 then [2, 2, 3, 1] else []
  password := p.password
  callingAPTitle := p.callingAPTitle
  callingAEQualifier := if p.callingAPTitle.length > 0 then some p.callingAEQualifier else none

section Requests

variable {p : AARQParams} {mmsPayload data : Octets}

theorem encodeEntity_ok {label : String} {titleTag qualifierTag : UInt8} {title : List Int64}
    {qualifier : Int64} {octets : Octets}
    (encoded : encodeEntity label titleTag qualifierTag title qualifier = .ok octets) :
    ∃ oid, (title ≠ [] → marshalOID title = .ok oid) ∧
      octets = (entityRecords titleTag qualifierTag title oid qualifier).flatMap
        fun record => encodeTLV record.1 record.2 := by
  unfold encodeEntity at encoded
  split at encoded
  · rename_i named
    split at encoded
    · cases encoded
    rename_i oid marshalled
    cases encoded
    exact ⟨oid, fun _ => marshalled, by simp [entityRecords, named]⟩
  rename_i unnamed
  cases encoded
  refine ⟨[], fun named => ?_, by simp [entityRecords, unnamed]⟩
  exact absurd (List.length_pos_of_ne_nil named) unnamed

/-- The fields of a request, given the encodings of its titles. -/
def aarqRecords (p : AARQParams) (called calling mmsPayload : Octets) : List (UInt8 × Octets) :=
  [(0xa1, appContextMmsEncoded)] ++
    entityRecords 0xa2 0xa3 p.calledAPTitle called p.calledAEQualifier ++
    entityRecords 0xa6 0xa7 p.callingAPTitle calling p.callingAEQualifier ++
    authRecords p.password ++ infoRecords mmsPayload

theorem encodeAARQ_ok (encoded : encodeAARQ p mmsPayload = .ok data) :
    ∃ called calling, (p.callingAPTitle ≠ [] → marshalOID p.callingAPTitle = .ok calling) ∧
      data = encodeTLV ApduType.aarq.tag
        (encodeFields (aarqRecords p called calling mmsPayload)) := by
  unfold encodeAARQ at encoded
  split at encoded
  · cases encoded
  rename_i calledOctets calledEncoded
  split at encoded
  · cases encoded
  rename_i callingOctets callingEncoded
  obtain ⟨called, -, rfl⟩ := encodeEntity_ok calledEncoded
  obtain ⟨calling, marshalled, rfl⟩ := encodeEntity_ok callingEncoded
  cases encoded
  refine ⟨called, calling, marshalled, ?_⟩
  congr 1
  simp only [aarqRecords, authRecords, infoRecords, encodeAuthentication,
    encodeUserInformation, encodeFields, List.flatMap_append]
  split_ifs <;> simp

/-- What the parser keeps of a field. -/
def storeAARQ (p : AARQParams) (mmsPayload : Octets) (fields : AARQFields)
    (record : UInt8 × Octets) : AARQFields :=
  if record.1 = 0xa6 then { fields with callingAPTitle := p.callingAPTitle }
  else if record.1 = 0xa7 then { fields with callingAEQualifier := some p.callingAEQualifier }
  else if record.1 = 0x8b then { fields with mechOIDRaw := some record.2 }
  else if record.1 = 0xac then { fields with rawAuthValue := some record.2 }
  else if record.1 = 0xbe then { fields with userData := mmsPayload }
  else fields

/-- The fields that the parser looks into can be read. -/
structure ReadableField (p : AARQParams) (mmsPayload : Octets) (record : UInt8 × Octets) :
    Prop where
  title : record.1 = 0xa6 → Asn1.unmarshalObjectIdentifier record.2 = .ok (p.callingAPTitle, [])
  qualifier : record.1 = 0xa7 → record.2 = encodeAEQualifier p.callingAEQualifier
  info : record.1 = 0xbe → parseExternalPayload record.2 = .ok mmsPayload

theorem aarqField_store {content : Octets} {offset : Nat} {record : UInt8 × Octets}
    (readable : ReadableField p mmsPayload record)
    (read : decodeTLVAt content offset = .ok ⟨record.1, record.2, tlvSize record.2.length⟩)
    (fields : AARQFields) :
    aarqField content fields offset =
      .ok (.next (storeAARQ p mmsPayload fields record) (offset + tlvSize record.2.length)) := by
  have qualifier := Codec.unmarshalInt64_encodeInt p.callingAEQualifier []
  rw [List.append_nil] at qualifier
  simp only [aarqField, read, storeAARQ]
  split
  · next title => simp only [readable.title title]
  · split
    · next here => simp only [readable.qualifier here, encodeAEQualifier, qualifier]
    · split
      · rfl
      · split
        · rfl
        · split
          · next here => simp only [readable.info here]
          · rfl

theorem readable_aarqRecords {called calling : Octets}
    (marshalled : p.callingAPTitle ≠ [] → marshalOID p.callingAPTitle = .ok calling)
    (roundTrips : Asn1.RoundTrips p.callingAPTitle)
    (fits : (encodeFields (aarqRecords p called calling mmsPayload)).length < maxContent) :
    ∀ record ∈ aarqRecords p called calling mmsPayload, ReadableField p mmsPayload record := by
  intro record member
  have short := length_lt_of_records fits record member
  simp only [aarqRecords, entityRecords, authRecords, infoRecords, List.mem_append] at member
  rcases member with (((context | calledField) | callingField) | authField) | infoField
  · rw [List.mem_singleton] at context
    subst context
    exact ⟨by simp, by simp, by simp⟩
  · split at calledField
    · rcases List.mem_pair.mp calledField with rfl | rfl <;> exact ⟨by simp, by simp, by simp⟩
    · cases calledField
  · split at callingField
    · rename_i named
      rcases List.mem_pair.mp callingField with rfl | rfl
      · exact ⟨fun _ => roundTrips _ (marshalled (List.ne_nil_of_length_pos named)), by simp,
          by simp⟩
      · exact ⟨by simp, fun _ => rfl, by simp⟩
    · cases callingField
  · split at authField
    · simp only [List.mem_cons, List.not_mem_nil, or_false] at authField
      rcases authField with rfl | rfl | rfl <;> exact ⟨by simp, by simp, by simp⟩
    · cases authField
  · split at infoField
    · rw [List.mem_singleton] at infoField
      subst infoField
      have external := length_le_encodeTLV 0x28
        (encodeTLV 0x02 (encodeInt 3) ++ encodeTLV 0xa0 mmsPayload)
      exact ⟨by simp, by simp, fun _ => parseExternalPayload_encode (external.trans_lt short)⟩
    · cases infoField

/-- The fields that are left after the whole request. -/
theorem foldl_aarqRecords (called calling : Octets) :
    (aarqRecords p called calling mmsPayload).foldl (storeAARQ p mmsPayload) {} =
      { userData := mmsPayload
        callingAPTitle := p.callingAPTitle
        callingAEQualifier :=
          if p.callingAPTitle.length > 0 then some p.callingAEQualifier else none
        mechOIDRaw := if p.password.length > 0 then some authMechPasswordOID else none
        rawAuthValue :=
          if p.password.length > 0 then some (encodeTLV 0x80 p.password) else none } := by
  have skipped (fields : AARQFields) :
      (entityRecords 0xa2 0xa3 p.calledAPTitle called p.calledAEQualifier).foldl
        (storeAARQ p mmsPayload) fields = fields := by
    unfold entityRecords
    split <;> simp [storeAARQ]
  have titled : p.callingAPTitle = [] ∨ p.callingAPTitle.length > 0 := by
    cases p.callingAPTitle <;> simp
  have filled : mmsPayload = [] ∨ mmsPayload.length > 0 := by
    cases mmsPayload <;> simp
  rw [aarqRecords, List.foldl_append, List.foldl_append, List.foldl_append, List.foldl_append,
    skipped, List.foldl_cons, List.foldl_nil]
  unfold entityRecords authRecords infoRecords
  rcases titled with untitled | titled <;> rcases filled with empty | filled <;>
    split_ifs <;> simp_all [storeAARQ]

theorem parsePasswordAuthValue_encode {password : Octets} (fits : password.length < maxContent) :
    parsePasswordAuthValue (encodeTLV 0x80 password) = .ok password := by
  have positive := two_le_tlvSize password.length
  rw [parsePasswordAuthValue, if_neg (by rw [length_encodeTLV]; omega), decodeTLVAt_alone 0x80 fits]
  simp [tagAuthValueGraphicString]

theorem decodeImplicitOID_authMechPasswordOID :
    decodeImplicitOID authMechPasswordOID = .ok [2, 2, 3, 1] := by
  decide +kernel

/-- A request that was encoded is parsed into its payload and what it says of the client. -/
theorem parseAARQ_records {called calling : Octets}
    (marshalled : p.callingAPTitle ≠ [] → marshalOID p.callingAPTitle = .ok calling)
    (roundTrips : Asn1.RoundTrips p.callingAPTitle)
    (fits : (encodeFields (aarqRecords p called calling mmsPayload)).length < maxContent) :
    parseAARQ (encodeFields (aarqRecords p called calling mmsPayload)) =
      .ok (mmsPayload, p.authInfo) := by
  have readable := readable_aarqRecords marshalled roundTrips fits
  have small := length_lt_of_records fits
  have loop := offsetLoop_records (storeAARQ p mmsPayload) aarqField
    (fun _ rest => ∀ record ∈ rest, ReadableField p mmsPayload record)
    (fun data offset fields record rest known read => ?_) small {} readable
  · rw [parseAARQ, loop, foldl_aarqRecords]
    simp only [AARQFields.authInfo, AARQParams.authInfo]
    by_cases secret : p.password.length > 0
    · have short : p.password.length < maxContent := by
        have member : ((0xac : UInt8), encodeTLV 0x80 p.password) ∈
            aarqRecords p called calling mmsPayload := by
          simp [aarqRecords, authRecords, secret]
        have own := length_le_encodeTLV 0x80 p.password
        have bound := small _ member
        dsimp only at bound
        omega
      simp only [secret, if_true, decodeImplicitOID_authMechPasswordOID, classifyMechanism,
        parsePasswordAuthValue_encode short]
    · have none : p.password = [] := List.length_eq_zero_iff.mp (Nat.eq_zero_of_not_pos secret)
      simp [none]
  · obtain ⟨first, others⟩ := List.forall_mem_cons.mp known
    exact ⟨aarqField_store first read fields, others⟩

theorem parse_encodeAARQ (encoded : encodeAARQ p mmsPayload = .ok data)
    (roundTrips : Asn1.RoundTrips p.callingAPTitle) (fits : data.length < maxContent) :
    parse data = .ok { type := .aarq, auth := p.authInfo, userData := mmsPayload } := by
  obtain ⟨called, calling, marshalled, rfl⟩ := encodeAARQ_ok encoded
  have whole := length_le_encodeTLV ApduType.aarq.tag
    (encodeFields (aarqRecords p called calling mmsPayload))
  have content := whole.trans_lt fits
  have exact := decodeTLVExact_encodeTLV ApduType.aarq.tag content
  obtain ⟨lead, rest, shape⟩ := encodeTLV_eq_cons ApduType.aarq.tag
    (encodeFields (aarqRecords p called calling mmsPayload))
  rw [shape] at exact ⊢
  simp only [parse, exact, if_true, parseAARQ_records marshalled roundTrips content]

end Requests

/-! ## Responses -/

section Responses

variable {mmsPayload : Octets}

/-- The fields of a response. -/
def aareRecords (result : Int64) (mmsPayload : Octets) : List (UInt8 × Octets) :=
  [(0xa1, appContextMmsEncoded), (0xa2, encodeTLV 0x02 (encodeInt result)),
    (0xa3, encodeTLV 0xa1 (encodeTLV 0x02 [0x00]))] ++ infoRecords mmsPayload

theorem encodeAARE_eq (result : Int64) (mmsPayload : Octets) :
    encodeAARE result mmsPayload =
      encodeTLV ApduType.aare.tag (encodeFields (aareRecords result mmsPayload)) := by
  simp only [encodeAARE, aareRecords, infoRecords, encodeUserInformation, encodeFields,
    List.flatMap_append]
  split_ifs <;> simp

/-- What the parser keeps of a field. -/
def storeAARE (result : Int64) (mmsPayload : Octets) (aare : ParsedAARE)
    (record : UInt8 × Octets) : ParsedAARE :=
  if record.1 = 0xa2 then { aare with result := result }
  else if record.1 = 0xbe then { aare with userData := mmsPayload }
  else aare

theorem foldl_aareRecords (result : Int64) (mmsPayload : Octets) :
    (aareRecords result mmsPayload).foldl (storeAARE result mmsPayload) { result := -1 } =
      { result := result, userData := mmsPayload } := by
  cases mmsPayload <;> simp [aareRecords, infoRecords, storeAARE]

theorem parse_encodeAARE (fits : (encodeAARE resultAccepted mmsPayload).length < maxContent) :
    parse (encodeAARE resultAccepted mmsPayload) =
      .ok { type := .aare, aare := some { result := 0, userData := mmsPayload }
            userData := mmsPayload } := by
  rw [encodeAARE_eq] at fits ⊢
  have whole := length_le_encodeTLV ApduType.aare.tag
    (encodeFields (aareRecords resultAccepted mmsPayload))
  have content := whole.trans_lt fits
  have small := length_lt_of_records content
  have result : decodeTLV (encodeTLV 0x02 (encodeInt resultAccepted)) =
      .ok (0x02, encodeInt resultAccepted) := by decide +kernel
  have accepted : decodeInteger (encodeInt resultAccepted) = .ok resultAccepted := by
    decide +kernel
  have loop := offsetLoop_records (storeAARE resultAccepted mmsPayload) aareField
    (fun _ rest => ∀ record ∈ rest, record ∈ aareRecords resultAccepted mmsPayload)
    (fun data offset aare record rest known read => ?_) small { result := -1 } fun _ => id
  · have exact := decodeTLVExact_encodeTLV ApduType.aare.tag content
    obtain ⟨lead, rest, shape⟩ := encodeTLV_eq_cons ApduType.aare.tag
      (encodeFields (aareRecords resultAccepted mmsPayload))
    rw [foldl_aareRecords] at loop
    rw [shape] at exact ⊢
    simp only [parse, exact, parseAARE, loop]
    rfl
  · obtain ⟨member, others⟩ := List.forall_mem_cons.mp known
    refine ⟨?_, others⟩
    have bound := small record member
    simp only [aareRecords, infoRecords, List.mem_append, List.mem_cons, List.not_mem_nil,
      or_false] at member
    rcases member with (rfl | rfl | rfl) | info
    · simp [aareField, read, storeAARE]
    · simp [aareField, read, storeAARE, result, accepted]
    · simp [aareField, read, storeAARE]
    · split at info
      · rw [List.mem_singleton] at info
        subst info
        have external := length_le_encodeTLV 0x28
          (encodeTLV 0x02 (encodeInt 3) ++ encodeTLV 0xa0 mmsPayload)
        simp [aareField, read, storeAARE, parseExternalPayload_encode (external.trans_lt bound)]
      · cases info

end Responses

end GoMms.Acse

namespace GoMms.Isostack

open Berutil

structure Params where
  callingSessionSelector : Octets := []
  calledSessionSelector : Octets := []
  callingPresentationSelector : Octets := []
  calledPresentationSelector : Octets := []
  acse : GoMms.Acse.AARQParams := {}
  deriving DecidableEq, Repr

structure AssociateResult where
  acseResult : Int64
  mmsPayload : Octets
  deriving DecidableEq, Repr

structure AssociateRequest where
  mmsPayload : Octets
  auth : GoMms.Acse.AuthInfo
  deriving DecidableEq, Repr

def encodeAssociateRequest (p : Params) (mmsPayload : Octets) : Except String Octets :=
  match GoMms.Acse.encodeAARQ p.acse mmsPayload with
  | .error text => .error ("isostack: encode AARQ: " ++ text)
  | .ok aarq =>
    let cp := Presentation.encodeCP
      { callingSelector := p.callingPresentationSelector
        calledSelector := p.calledPresentationSelector } aarq
    match Session.encodeConnect
      { callingSelector := p.callingSessionSelector
        calledSelector := p.calledSessionSelector } cp with
    | .error text => .error ("isostack: encode CONNECT: " ++ text)
    | .ok cn => .ok cn

def decodeAssociateRequest (data : Octets) : Except String AssociateRequest :=
  match Session.parse data with
  | .error text => .error ("isostack: parse session CONNECT: " ++ text)
  | .ok spdu =>
    if spdu.type ≠ .connect then
      .error ("isostack: expected CONNECT, got " ++ spdu.type.string)
    else
      match Presentation.parse spdu.userData with
      | .error text => .error ("isostack: parse presentation CP: " ++ text)
      | .ok ppdu =>
        if ppdu.kind ≠ .cp then .error ("isostack: expected CP, got " ++ ppdu.kind.string)
        else
          match GoMms.Acse.parse ppdu.userData with
          | .error text => .error ("isostack: parse ACSE AARQ: " ++ text)
          | .ok apdu =>
            if apdu.type ≠ .aarq then
              .error ("isostack: expected AARQ, got " ++ apdu.type.string)
            else .ok ⟨apdu.userData, apdu.auth⟩

def encodeAssociateResponse (mmsPayload : Octets) : Except String Octets :=
  let aare := GoMms.Acse.encodeAARE GoMms.Acse.resultAccepted mmsPayload
  let cpa := Presentation.encodeCPA [] aare
  match Session.encodeAccept {} cpa with
  | .error text => .error ("isostack: encode ACCEPT: " ++ text)
  | .ok b => .ok b

/-- `DecodeAssociateResponse`. An AARE that was parsed has its result, so the two patterns of the
last match cover what the source distinguishes by the type alone. -/
def decodeAssociateResponse (data : Octets) : Except String AssociateResult :=
  match Session.parse data with
  | .error text => .error ("isostack: session: " ++ text)
  | .ok spdu =>
    if spdu.type ≠ .accept then
      .error ("isostack: expected Session ACCEPT, got " ++ spdu.type.string)
    else
      match Presentation.parse spdu.userData with
      | .error text => .error ("isostack: presentation: " ++ text)
      | .ok ppdu =>
        if ppdu.kind ≠ .cpa then
          .error ("isostack: expected Presentation CPA, got " ++ ppdu.kind.string)
        else if ppdu.contextID ≠ Presentation.contextIDACSE then
          .error ("isostack: expected ACSE context (1) in association response, got context " ++
            toString ppdu.contextID)
        else
          match GoMms.Acse.parse ppdu.userData with
          | .error text => .error ("isostack: acse: " ++ text)
          | .ok apdu =>
            match apdu.aare with
            | some aare => .ok ⟨aare.result, aare.userData⟩
            | none => .error ("isostack: expected ACSE AARE, got " ++ apdu.type.string)

section RoundTrip

variable {mmsPayload data : Octets}

theorem decodeAssociateRequest_encode {p : Params}
    (roundTrips : Asn1.RoundTrips p.acse.callingAPTitle)
    (encoded : encodeAssociateRequest p mmsPayload = .ok data) :
    decodeAssociateRequest data = .ok ⟨mmsPayload, p.acse.authInfo⟩ := by
  unfold encodeAssociateRequest at encoded
  split at encoded
  · cases encoded
  rename_i aarq aarqEncoded
  simp only at encoded
  split at encoded
  · cases encoded
  rename_i cn connected
  cases encoded
  have frame := Session.length_userData_le connected
  have limit : Session.maxLI < maxContent := by decide
  have cp := frame.trans_lt limit
  rw [Presentation.encodeCP_eq] at frame
  have inside := Presentation.length_le_encodeConnectPPDU
    (encodeFields (Presentation.cpFields
      { callingSelector := p.callingPresentationSelector
        calledSelector := p.calledPresentationSelector })) aarq
  have apdu := GoMms.Acse.parse_encodeAARQ aarqEncoded roundTrips
    ((inside.trans frame).trans_lt limit)
  simp only [decodeAssociateRequest, Session.parse_encodeConnect connected,
    Presentation.parse_encodeCP cp, apdu, ne_eq, not_true_eq_false, if_false]

theorem decodeAssociateResponse_encode
    (encoded : encodeAssociateResponse mmsPayload = .ok data) :
    decodeAssociateResponse data = .ok ⟨0, mmsPayload⟩ := by
  unfold encodeAssociateResponse at encoded
  simp only at encoded
  split at encoded
  · cases encoded
  rename_i b accepted
  cases encoded
  have frame := Session.length_userData_le accepted
  have limit : Session.maxLI < maxContent := by decide
  have cpa := frame.trans_lt limit
  rw [Presentation.encodeCPA_eq] at frame
  have inside := Presentation.length_le_encodeConnectPPDU
    (encodeFields (Presentation.cpaFields [])) (GoMms.Acse.encodeAARE GoMms.Acse.resultAccepted mmsPayload)
  have apdu := GoMms.Acse.parse_encodeAARE ((inside.trans frame).trans_lt limit)
  simp only [decodeAssociateResponse, Session.parse_encodeAccept accepted,
    Presentation.parse_encodeCPA cpa, apdu, ne_eq, not_true_eq_false, if_false]

end RoundTrip

/-- An association request, its response and every data frame give back what was put into them. -/
theorem association_roundTrips (p : Params) :
    (∀ mmsPayload data, Asn1.RoundTrips p.acse.callingAPTitle →
      encodeAssociateRequest p mmsPayload = .ok data →
      decodeAssociateRequest data = .ok ⟨mmsPayload, p.acse.authInfo⟩) ∧
    (∀ mmsPayload data, encodeAssociateResponse mmsPayload = .ok data →
      decodeAssociateResponse data = .ok ⟨0, mmsPayload⟩) ∧
    ∀ mmsPayload,
      (Presentation.encodeUserData Presentation.contextIDMMS mmsPayload).length < 2 ^ 24 →
      decodeDataResponse (encodeDataRequest mmsPayload) = .ok mmsPayload :=
  ⟨fun _ _ roundTrips encoded => decodeAssociateRequest_encode roundTrips encoded,
    fun _ _ encoded => decodeAssociateResponse_encode encoded,
    fun _ fits => decodeDataResponse_encodeDataRequest fits⟩

/-- A client with a title, a qualifier and a password. -/
def sampleParams : Params where
  callingSessionSelector := [0x00, 0x01]
  calledPresentationSelector := [0x00, 0x00, 0x00, 0x01]
  acse :=
    { callingAPTitle := [1, 1, 1, 999, 1], callingAEQualifier := 12, password := [0x70, 0x77] }

theorem association_roundTrips_named :
    ∃ data, encodeAssociateRequest sampleParams [0xa8, 0x00] = .ok data ∧
      decodeAssociateRequest data =
        .ok ⟨[0xa8, 0x00],
          { mechanism := .password, mechanismOID := [2, 2, 3, 1], password := [0x70, 0x77]
            callingAPTitle := [1, 1, 1, 999, 1], callingAEQualifier := some 12 }⟩ := by
  have roundTrips : Asn1.RoundTrips sampleParams.acse.callingAPTitle := by
    intro octets marshalled
    have written : Asn1.marshalObjectIdentifier sampleParams.acse.callingAPTitle =
        .ok [0x06, 0x05, 0x29, 0x01, 0x87, 0x67, 0x01] := by
      decide +kernel
    cases written.symm.trans marshalled
    decide +kernel
  cases encoded : encodeAssociateRequest sampleParams [0xa8, 0x00] with
  | error text =>
    have accepted : (encodeAssociateRequest sampleParams [0xa8, 0x00]).isOk = true := by
      decide +kernel
    rw [encoded] at accepted
    cases accepted
  | ok data =>
    exact ⟨data, rfl, (association_roundTrips sampleParams).1 _ _ roundTrips encoded⟩

end GoMms.Isostack
