import GoMms.Codec.Reply
import GoMms.Pdu.DataRoundTrip
import GoMms.Pdu.VariableSpec

/-!
# Read and Write requests

The client's request encoders of `internal/pdu/read.go` against the server's parsers in
`server_helpers.go`, each with its two forms of access: a list of variables, or the name of a list.
What a request asks for arrives in the same order, with the flag and the values it carries.
-/

namespace GoMms.Pdu

open Berutil Codec

def tagReadVarAccessSpec : UInt8 := 0xa1
def tagWriteListOfData : UInt8 := 0xa0
def tagServiceRead : UInt8 := 0xa4
def tagServiceWrite : UInt8 := 0xa5

/-! ## The client's side -/

/-- `marshalConfirmedLegacy`: the service tag is given as an octet. -/
def marshalConfirmedLegacy (invokeID : UInt32) (tag : UInt8) (payload : Octets) : Octets :=
  marshalConfirmedRequest invokeID (Int64.ofNat (tag &&& 0x1f).toNat) (tag &&& 0x20 != 0) payload

def marshalReadRequestWithAccess (invokeID : UInt32) (vars : List VariableSpecWire) :
    Except String Octets :=
  match encodeListOfVariableWithAccess vars with
  | .error text => .error ("pdu: read request: " ++ text)
  | .ok varSpec =>
    .ok (marshalConfirmedLegacy invokeID tagServiceRead (encodeTLV tagReadVarAccessSpec varSpec))

def marshalReadRequestByListNameWithSpec (invokeID : UInt32) (listName : ObjectNameWire)
    (specWithResult : Bool) : Except String Octets :=
  match encodeObjectName listName with
  | .error text => .error ("pdu: read by list name: " ++ text)
  | .ok nameBytes =>
    .ok (marshalConfirmedLegacy invokeID tagServiceRead
      ((if specWithResult then encodeTLV 0x80 [0xff] else []) ++
        encodeTLV tagReadVarAccessSpec (encodeTLV tagVarListName nameBytes)))

section Codec

variable (runtime : Runtime)

def marshalWriteRequestWithAccess (invokeID : UInt32) (vars : List VariableSpecWire)
    (values : List DataValue) : Except String Octets :=
  if vars.length ≠ values.length then
    .error ("pdu: write request: " ++ toString vars.length ++ " variables but " ++
      toString values.length ++ " values")
  else
    match encodeListOfVariableWithAccess vars with
    | .error text => .error ("pdu: write request: " ++ text)
    | .ok varSpec =>
      match marshalDataList runtime values with
      | .error text => .error ("pdu: write request: marshal data: " ++ text)
      | .ok dataContent =>
        .ok (marshalConfirmedLegacy invokeID tagServiceWrite
          (varSpec ++ encodeTLV tagWriteListOfData dataContent))

def marshalWriteRequestByListName (invokeID : UInt32) (listName : ObjectNameWire)
    (values : List DataValue) : Except String Octets :=
  match encodeObjectName listName with
  | .error text => .error ("pdu: write by list name: " ++ text)
  | .ok nameBytes =>
    match marshalDataList runtime values with
    | .error text => .error ("pdu: write by list name: marshal data: " ++ text)
    | .ok dataContent =>
      .ok (marshalConfirmedLegacy invokeID tagServiceWrite
        (encodeTLV tagVarListName nameBytes ++ encodeTLV tagWriteListOfData dataContent))

/-! ## The server's side -/

structure ReadRequestWire where
  specWithResult : Bool := false
  vars : List VariableSpecWire := []
  listName : Option ObjectNameWire := none
  deriving DecidableEq, Repr

/-- The optional flag at the front of a Read request, and the offset after it. -/
def decodeSpecWithResult (data : Octets) : Except String (Bool × Nat) :=
  if data.head? = some 0x80 then
    match decodeTLVAt data 0 with
    | .error text => .error ("read request: specificationWithResult: " ++ text)
    | .ok tlv => .ok (tlv.content.headD 0 != 0, tlv.consumed)
  else .ok (false, 0)

/-- The choice in the variable access specification of a Read request. -/
def decodeReadAccess (specWithResult : Bool) (tag : UInt8) (content : Octets) :
    Except String ReadRequestWire :=
  if tag = tagListOfVar then
    match decodeVarSpecListFull content with
    | .error text => .error text
    | .ok specs => .ok { specWithResult := specWithResult, vars := specs }
  else if tag = tagVarListName then
    match decodeObjectName content with
    | .error text => .error ("read request: variableListName: " ++ text)
    | .ok name => .ok { specWithResult := specWithResult, listName := some name }
  else
    .error ("read request: expected listOfVariable [0] (0xa0) or variableListName [1] (0xa1), " ++
      "got 0x" ++ hex02 tag)

def unmarshalReadRequestParsed (data : Octets) : Except String ReadRequestWire :=
  match decodeSpecWithResult data with
  | .error text => .error text
  | .ok (specWithResult, offset) =>
    if offset ≥ data.length then .error "read request: missing variableAccessSpecification"
    else
      match decodeTLVAt data offset with
      | .error text => .error ("read request: variableAccessSpecification: " ++ text)
      | .ok outer =>
        let offset := offset + outer.consumed
        if outer.tag ≠ tagReadVarAccessSpec then
          .error ("read request: expected variableAccessSpecification [1] (0xa1), got 0x" ++
            hex02 outer.tag)
        else if offset ≠ data.length then
          .error ("read request: " ++ toString ((data.length : Int) - offset) ++ " trailing bytes")
        else
          match decodeTLVAt outer.content 0 with
          | .error text => .error ("read request: variableAccessSpecification choice: " ++ text)
          | .ok inner =>
            if inner.consumed ≠ outer.content.length then
              .error ("read request: " ++
                toString ((outer.content.length : Int) - inner.consumed) ++
                " trailing bytes in variableAccessSpecification")
            else decodeReadAccess specWithResult inner.tag inner.content

structure WriteRequestWire where
  vars : List VariableSpecWire := []
  listName : Option ObjectNameWire := none
  values : List DataValue := []

/-- One pass of the loop over the data of a Write request. -/
def writeDataPass (data : Octets) (values : List DataValue) (offset : Nat) :
    Except String (LoopStep (List DataValue)) :=
  match unmarshalDataElement runtime data offset with
  | .error text => .error ("write request: data [" ++ toString values.length ++ "]: " ++ text)
  | .ok (dv, consumed) => .ok (.next (values ++ [dv]) (offset + consumed))

/-- The variable access specification of a Write request. -/
def decodeWriteAccess (tag : UInt8) (content : Octets) :
    Except String (List VariableSpecWire × Option ObjectNameWire) :=
  if tag = tagListOfVar then
    match decodeVarSpecListFull content with
    | .error text => .error ("write request: " ++ text)
    | .ok specs => .ok (specs, none)
  else if tag = tagVarListName then
    match decodeObjectName content with
    | .error text => .error ("write request: variableListName: " ++ text)
    | .ok name => .ok ([], some name)
  else
    .error ("write request: expected listOfVariable [0] or variableListName [1], got 0x" ++
      hex02 tag)

def unmarshalWriteRequestParsed (data : Octets) : Except String WriteRequestWire :=
  if data.length = 0 then .error "write request: missing variable access specification"
  else
    match decodeTLVAt data 0 with
    | .error text => .error ("write request: varAccessSpec: " ++ text)
    | .ok access =>
      match decodeWriteAccess access.tag access.content with
      | .error text => .error text
      | .ok (vars, listName) =>
        if access.consumed ≥ data.length then .error "write request: missing data list"
        else
          match decodeTLVAt data access.consumed with
          | .error text => .error ("write request: dataList: " ++ text)
          | .ok list =>
            let offset := access.consumed + list.consumed
            if list.tag ≠ tagWriteListOfData then
              .error ("write request: expected listOfData [0] (0xa0), got 0x" ++ hex02 list.tag)
            else if offset ≠ data.length then
              .error ("write request: " ++ toString ((data.length : Int) - offset) ++
                " trailing bytes")
            else
              match offsetLoop list.content.length (writeDataPass runtime list.content) [] 0 with
              | .error text => .error text
              | .ok (values, _) =>
                if listName = none ∧ vars.length ≠ values.length then
                  .error ("write request: variable count (" ++ toString vars.length ++
                    ") != value count (" ++ toString values.length ++ ")")
                else .ok ⟨vars, listName, values⟩

end Codec

variable {data : Octets} {req : ReadRequestWire}

/-- An accepted Read holds a variable access specification. -/
theorem unmarshalReadRequestParsed_ok (parsed : unmarshalReadRequestParsed data = .ok req) :
    ∃ flag offset outer inner, decodeSpecWithResult data = .ok (flag, offset) ∧
      decodeTLVAt data offset = .ok outer ∧ decodeTLVAt outer.content 0 = .ok inner ∧
      decodeReadAccess flag inner.tag inner.content = .ok req := by
  unfold unmarshalReadRequestParsed at parsed
  split at parsed
  · cases parsed
  rename_i flag offset skipped
  split_ifs at parsed
  split at parsed
  · cases parsed
  rename_i outer read
  simp only at parsed
  split_ifs at parsed
  split at parsed
  · cases parsed
  rename_i inner choice
  split_ifs at parsed
  exact ⟨flag, offset, outer, inner, skipped, read, choice, parsed⟩

/-- What a Read names can be sent back to the client. -/
theorem unmarshalReadRequestParsed_sendable (parsed : unmarshalReadRequestParsed data = .ok req) :
    (∀ name ∈ req.listName, name.KnownScope) ∧ ∀ spec ∈ req.vars, spec.Sendable := by
  obtain ⟨flag, -, -, inner, -, -, -, decoded⟩ := unmarshalReadRequestParsed_ok parsed
  unfold decodeReadAccess at decoded
  split_ifs at decoded
  · split at decoded
    · cases decoded
    rename_i specs accepted
    cases decoded
    exact ⟨by simp, decodeVarSpecListFull_sendable accepted⟩
  · split at decoded
    · cases decoded
    rename_i name accepted
    cases decoded
    refine ⟨?_, by simp⟩
    rintro _ ⟨⟩
    exact decodeObjectName_knownScope accepted

/-! ## Requests arrive -/

/-- The contents of the PDU are within the length that the decoders can express. -/
def Expressible (pdu : Octets) : Prop :=
  ∀ content, pdu = wrapConstructed 0 content → content.length < maxContent

theorem expressible_of_length {pdu : Octets} (short : pdu.length < maxContent) :
    Expressible pdu := by
  rintro content rfl
  refine lt_of_le_of_lt ?_ short
  unfold wrapConstructed wrapContextTag
  simp
  omega

/-- The server takes this invoke ID, service tag and service body out of the PDU. -/
def Delivers (pdu : Octets) (invokeID : UInt32) (tag : Nat) (body : Octets) : Prop :=
  ∃ content raw, decodePdu pdu = .ok (.confirmedRequest, content) ∧
    unmarshalConfirmedRequest content = .ok (invokeID, raw) ∧ raw.tag = tag ∧ raw.bytes = body

section Delivery

variable {invokeID : UInt32} {payload : Octets}

variable {tagNum : Int64}

variable {constructed : Bool}

theorem length_payload_lt
    (fits : (requestContent invokeID tagNum constructed payload).length < maxContent) :
    payload.length < maxContent := by
  have long : payload.length ≤ (wrapContextTag tagNum constructed payload).length := by
    unfold wrapContextTag
    dsimp only
    split <;> simp <;> omega
  rw [requestContent, List.length_append] at fits
  omega

theorem delivers_marshalConfirmedLegacy {tag : UInt8} (short : (tag &&& 0x1f).toNat ≤ 30)
    (expressible : Expressible (marshalConfirmedLegacy invokeID tag payload)) :
    payload.length < maxContent ∧
      Delivers (marshalConfirmedLegacy invokeID tag payload) invokeID (tag &&& 0x1f).toNat
        payload := by
  have number : (Int64.ofNat (tag &&& 0x1f).toNat).toInt.toNat = (tag &&& 0x1f).toNat := by
    rw [Int64.toInt_ofNat_of_lt (by omega)]
    rfl
  have fits := expressible (requestContent invokeID (Int64.ofNat (tag &&& 0x1f).toNat)
    (tag &&& 0x20 != 0) payload) rfl
  have small := length_payload_lt fits
  refine ⟨small, _, _, decodePdu_marshalConfirmedRequest _ _ _ (fits.trans (by decide)),
    unmarshalConfirmedRequest_requestContent invokeID (by omega) _ (small.trans (by decide)),
    number, rfl⟩

/-- A request of moderate size is delivered as it was handed over. -/
theorem delivers_marshalConfirmedRequest (small : tagNum.toInt < 2 ^ 31) (constructed : Bool)
    (short : payload.length < maxContent) :
    Delivers (marshalConfirmedRequest invokeID tagNum constructed payload) invokeID
      tagNum.toInt.toNat payload := by
  exact ⟨_, _, decodePdu_marshalConfirmedRequest _ _ _
      (length_requestContent_lt invokeID tagNum constructed short),
    unmarshalConfirmedRequest_requestContent invokeID small constructed
      (short.trans (by decide)), rfl, rfl⟩

/-- The server's decoder reads what the client's encoder sent. -/
def ArrivesAs {Request : Type} (pdu : Octets) (invokeID : UInt32) (tag : Int64)
    (unmarshal : Octets → Except String Request) (request : Request) : Prop :=
  ∃ body, Delivers pdu invokeID tag.toInt.toNat body ∧ unmarshal body = .ok request

theorem arrivesAs_marshalConfirmedRequest {Request : Type}
    {unmarshal : Octets → Except String Request} {request : Request} (small : tagNum.toInt < 2 ^ 31)
    (short : payload.length < maxContent) (decoded : unmarshal payload = .ok request) :
    ArrivesAs (marshalConfirmedRequest invokeID tagNum constructed payload) invokeID tagNum
      unmarshal
      request :=
  ⟨payload, delivers_marshalConfirmedRequest small constructed short, decoded⟩

end Delivery

section Read

/-- The flag as it is written. -/
def specOctets (specWithResult : Bool) : Octets :=
  if specWithResult then encodeTLV 0x80 [0xff] else []

theorem decodeSpecWithResult_encode (specWithResult : Bool) (content : Octets) :
    decodeSpecWithResult
        (specOctets specWithResult ++ encodeTLV tagReadVarAccessSpec content) =
      .ok (specWithResult, (specOctets specWithResult).length) := by
  cases specWithResult with
  | true =>
    have read := decodeTLVAt_encodeTLV 0x80 (show [(0xff : UInt8)].length < maxContent by decide)
      [] (encodeTLV tagReadVarAccessSpec content)
    simp only [List.nil_append, List.length_nil] at read
    have lead : (encodeTLV 0x80 [0xff] ++ encodeTLV tagReadVarAccessSpec content).head? =
        some 0x80 := rfl
    simp only [decodeSpecWithResult, specOctets, if_true, lead, read, length_encodeTLV]
    rfl
  | false =>
    have lead : (encodeTLV tagReadVarAccessSpec content).head? ≠ some 0x80 := by
      obtain ⟨size, rest, shape⟩ := encodeTLV_eq_cons tagReadVarAccessSpec content
      rw [shape]
      simp [tagReadVarAccessSpec]
    simp [decodeSpecWithResult, specOctets, lead]

theorem unmarshalReadRequestParsed_encode (specWithResult : Bool) {tag : UInt8} {content : Octets}
    (fits : (encodeTLV tag content).length < maxContent) :
    unmarshalReadRequestParsed (specOctets specWithResult ++
        encodeTLV tagReadVarAccessSpec (encodeTLV tag content)) =
      decodeReadAccess specWithResult tag content := by
  have outer := decodeTLVAt_encodeTLV tagReadVarAccessSpec fits (specOctets specWithResult) []
  have inner := decodeTLVAt_alone tag ((length_le_encodeTLV tag content).trans_lt fits)
  have positive := two_le_tlvSize (encodeTLV tag content).length
  simp only [List.append_nil] at outer
  simp only [unmarshalReadRequestParsed, decodeSpecWithResult_encode, outer, inner, ne_eq,
    not_true_eq_false, if_false, List.length_append, length_encodeTLV]
  rw [if_neg]
  rw [length_encodeTLV] at positive
  omega

end Read

section Write

variable {runtime : Runtime} {values : List DataValue}

/-- The values for which the Data codec round-trips. -/
def Readable (runtime : Runtime) (values : List DataValue) : Prop :=
  ∀ value ∈ values, ReadsBack runtime (maxDataNestingDepth + 1) value

theorem offsetLoop_writeDataPass (readable : Readable runtime values) :
    ∃ dataContent, marshalDataList runtime values = .ok dataContent ∧
      offsetLoop dataContent.length (writeDataPass runtime dataContent) [] 0 =
        .ok (values, dataContent.length) := by
  obtain ⟨items, rfl, encoded, reads⟩ := marshalDataList_eq readable
  refine ⟨_, encoded, offsetLoop_collect Prod.snd Prod.fst (writeDataPass runtime) items
    fun front rest found item member _ => ?_⟩
  obtain ⟨filled, read⟩ := reads item member
  refine ⟨?_, filled⟩
  simp only [writeDataPass, unmarshalDataElement, read]

/-- The data list after an access specification that decodes to these variables or this name. -/
theorem unmarshalWriteRequestParsed_encode {tag : UInt8} {content dataContent : Octets}
    {vars : List VariableSpecWire} {listName : Option ObjectNameWire}
    (fits : content.length < maxContent) (dataFits : dataContent.length < maxContent)
    (access : decodeWriteAccess tag content = .ok (vars, listName))
    (loop : offsetLoop dataContent.length (writeDataPass runtime dataContent) [] 0 =
      .ok (values, dataContent.length))
    (counts : listName = none → vars.length = values.length) :
    unmarshalWriteRequestParsed runtime
        (encodeTLV tag content ++ encodeTLV tagWriteListOfData dataContent) =
      .ok ⟨vars, listName, values⟩ := by
  have first := decodeTLVAt_first tag fits (encodeTLV tagWriteListOfData dataContent)
  have second := decodeTLVAt_encodeTLV tagWriteListOfData dataFits (encodeTLV tag content) []
  have total : (encodeTLV tag content ++ encodeTLV tagWriteListOfData dataContent).length =
      tlvSize content.length + tlvSize dataContent.length := by
    rw [List.length_append, length_encodeTLV, length_encodeTLV]
  have positive := two_le_tlvSize dataContent.length
  have counted : ¬ (listName = none ∧ vars.length ≠ values.length) :=
    fun ⟨absent, differ⟩ => differ (counts absent)
  simp only [List.append_nil, length_encodeTLV] at second
  simp only [unmarshalWriteRequestParsed, first, access, second, total, loop, ne_eq,
    not_true_eq_false, if_false]
  rw [if_neg (by omega), if_neg (by omega), if_neg counted]

end Write

section Arrival

variable {runtime : Runtime} (invokeID : UInt32) {vars : List VariableSpecWire}
  {listName : ObjectNameWire} {values : List DataValue}

theorem readWithAccess_arrives (sendable : ∀ v ∈ vars, v.Sendable) :
    ∃ pdu, marshalReadRequestWithAccess invokeID vars = .ok pdu ∧ (Expressible pdu →
      ∃ body, Delivers pdu invokeID 4 body ∧
        unmarshalReadRequestParsed body = .ok { vars := vars.map VariableSpecWire.received }) := by
  obtain ⟨inner, encoded, arrives⟩ := decodeVarSpecListFull_encode 0 sendable
  simp only [marshalReadRequestWithAccess, encodeListOfVariableWithAccess, encoded]
  refine ⟨_, rfl, fun expressible => ?_⟩
  obtain ⟨small, delivers⟩ := delivers_marshalConfirmedLegacy (by decide) expressible
  have outer := length_le_encodeTLV tagReadVarAccessSpec (encodeTLV tagListOfVar inner)
  have list := length_le_encodeTLV tagListOfVar inner
  refine ⟨_, delivers, ?_⟩
  have parsed := unmarshalReadRequestParsed_encode false (outer.trans_lt small)
  rw [decodeReadAccess, if_pos rfl, arrives (list.trans_lt (outer.trans_lt small))] at parsed
  exact parsed

theorem readByListName_arrives (known : listName.KnownScope) (specWithResult : Bool) :
    ∃ pdu, marshalReadRequestByListNameWithSpec invokeID listName specWithResult = .ok pdu ∧
      (Expressible pdu → ∃ body, Delivers pdu invokeID 4 body ∧
        unmarshalReadRequestParsed body =
          .ok { specWithResult := specWithResult, listName := some listName.received }) := by
  obtain ⟨nameBytes, encoded, arrives⟩ := decodeObjectName_encode known
  simp only [marshalReadRequestByListNameWithSpec, encoded]
  refine ⟨_, rfl, fun expressible => ?_⟩
  obtain ⟨small, delivers⟩ := delivers_marshalConfirmedLegacy (by decide) expressible
  have outer := length_le_encodeTLV tagReadVarAccessSpec (encodeTLV tagVarListName nameBytes)
  have name := length_le_encodeTLV tagVarListName nameBytes
  rw [List.length_append] at small
  refine ⟨_, delivers, ?_⟩
  have parsed := unmarshalReadRequestParsed_encode specWithResult
    (show (encodeTLV tagVarListName nameBytes).length < maxContent by omega)
  rw [decodeReadAccess, if_neg (by decide), if_pos rfl, arrives (by omega)] at parsed
  exact parsed

theorem writeWithAccess_arrives (sendable : ∀ v ∈ vars, v.Sendable)
    (readable : Readable runtime values) (counts : vars.length = values.length) :
    ∃ pdu, marshalWriteRequestWithAccess runtime invokeID vars values = .ok pdu ∧
      (Expressible pdu → ∃ body, Delivers pdu invokeID 5 body ∧
        unmarshalWriteRequestParsed runtime body =
          .ok { vars := vars.map VariableSpecWire.received, values := values }) := by
  obtain ⟨inner, encoded, arrives⟩ := decodeVarSpecListFull_encode 0 sendable
  obtain ⟨dataContent, marshalled, loop⟩ := offsetLoop_writeDataPass readable
  simp only [marshalWriteRequestWithAccess, counts, ne_eq, not_true_eq_false, if_false,
    encodeListOfVariableWithAccess, encoded, marshalled]
  refine ⟨_, rfl, fun expressible => ?_⟩
  obtain ⟨small, delivers⟩ := delivers_marshalConfirmedLegacy (by decide) expressible
  have list := length_le_encodeTLV tagListOfVar inner
  have data := length_le_encodeTLV tagWriteListOfData dataContent
  rw [List.length_append] at small
  refine ⟨_, delivers, unmarshalWriteRequestParsed_encode (by omega) (by omega) ?_ loop ?_⟩
  · rw [decodeWriteAccess, if_pos rfl, arrives (by omega)]
  · rw [List.length_map]
    exact fun _ => counts

theorem writeByListName_arrives (known : listName.KnownScope)
    (readable : Readable runtime values) :
    ∃ pdu, marshalWriteRequestByListName runtime invokeID listName values = .ok pdu ∧
      (Expressible pdu → ∃ body, Delivers pdu invokeID 5 body ∧
        unmarshalWriteRequestParsed runtime body =
          .ok { listName := some listName.received, values := values }) := by
  obtain ⟨nameBytes, encoded, arrives⟩ := decodeObjectName_encode known
  obtain ⟨dataContent, marshalled, loop⟩ := offsetLoop_writeDataPass readable
  simp only [marshalWriteRequestByListName, encoded, marshalled]
  refine ⟨_, rfl, fun expressible => ?_⟩
  obtain ⟨small, delivers⟩ := delivers_marshalConfirmedLegacy (by decide) expressible
  have name := length_le_encodeTLV tagVarListName nameBytes
  have data := length_le_encodeTLV tagWriteListOfData dataContent
  rw [List.length_append] at small
  refine ⟨_, delivers, unmarshalWriteRequestParsed_encode (by omega) (by omega) ?_ loop ?_⟩
  · rw [decodeWriteAccess, if_neg (by decide), if_pos rfl, arrives (by omega)]
  · exact fun absent => nomatch absent

end Arrival

/-- Every Read and Write request arrives: the names and scopes, the selector chains, the flag and
the values, in the order in which they were sent. -/
theorem accessRequests_arrive (runtime : Runtime) (invokeID : UInt32) :
    (∀ vars : List VariableSpecWire, (∀ v ∈ vars, v.Sendable) →
      ∃ pdu, marshalReadRequestWithAccess invokeID vars = .ok pdu ∧ (Expressible pdu →
        ∃ body, Delivers pdu invokeID 4 body ∧ unmarshalReadRequestParsed body =
          .ok { vars := vars.map VariableSpecWire.received })) ∧
    (∀ (listName : ObjectNameWire) (specWithResult : Bool), listName.KnownScope →
      ∃ pdu, marshalReadRequestByListNameWithSpec invokeID listName specWithResult = .ok pdu ∧
        (Expressible pdu → ∃ body, Delivers pdu invokeID 4 body ∧
          unmarshalReadRequestParsed body =
            .ok { specWithResult := specWithResult, listName := some listName.received })) ∧
    (∀ (vars : List VariableSpecWire) (values : List DataValue), (∀ v ∈ vars, v.Sendable) →
      Readable runtime values →
      (vars.length = values.length →
        ∃ pdu, marshalWriteRequestWithAccess runtime invokeID vars values = .ok pdu) ∧
      ∀ pdu, marshalWriteRequestWithAccess runtime invokeID vars values = .ok pdu →
        Expressible pdu → ∃ body, Delivers pdu invokeID 5 body ∧
          unmarshalWriteRequestParsed runtime body =
            .ok { vars := vars.map VariableSpecWire.received, values := values }) ∧
    ∀ (listName : ObjectNameWire) (values : List DataValue), listName.KnownScope →
      Readable runtime values →
      ∃ pdu, marshalWriteRequestByListName runtime invokeID listName values = .ok pdu ∧
        (Expressible pdu → ∃ body, Delivers pdu invokeID 5 body ∧
          unmarshalWriteRequestParsed runtime body =
            .ok { listName := some listName.received, values := values }) := by
  refine ⟨fun vars => readWithAccess_arrives invokeID,
    fun listName specWithResult known => readByListName_arrives invokeID known specWithResult,
    fun vars values sendable readable => ⟨fun counts => ?_, fun pdu marshalled expressible => ?_⟩,
    fun listName values => writeByListName_arrives invokeID⟩
  · obtain ⟨pdu, marshalled, -⟩ := writeWithAccess_arrives invokeID sendable readable counts
    exact ⟨pdu, marshalled⟩
  · have counts : vars.length = values.length := by
      by_contra differ
      rw [marshalWriteRequestWithAccess, if_pos differ] at marshalled
      cases marshalled
    obtain ⟨same, again, arrives⟩ := writeWithAccess_arrives invokeID sendable readable counts
    obtain rfl := Except.ok.inj (again.symm.trans marshalled)
    exact arrives expressible

theorem accessRequests_arrive_nested :
    let element : VariableSpecWire :=
      ⟨{ scope := scopeDomain, domainID := [0x4c, 0x44], itemID := [0x4d] },
        [⟨[0x61], false, 0, none⟩, ⟨[], true, 3, none⟩, ⟨[], false, 0, some ⟨1, 2⟩⟩]⟩
    ∃ pdu body, marshalReadRequestWithAccess 7 [element] = .ok pdu ∧ Delivers pdu 7 4 body ∧
      unmarshalReadRequestParsed body = .ok { vars := [element] } := by
  intro element
  have unsigned : ∀ v : Int64, v = 0 ∨ v = 1 ∨ v = 2 ∨ v = 3 → IsUnsigned32 v := by
    rintro v (rfl | rfl | rfl | rfl) <;> exact ⟨by decide, by decide⟩
  have sendable : ∀ v ∈ [element], v.Sendable := by
    simp only [List.forall_mem_singleton]
    refine ⟨.inr (.inl rfl), ?_⟩
    simp only [element, List.forall_mem_cons]
    refine ⟨⟨by simp, by decide, unsigned _ (.inl rfl), by simp⟩,
      ⟨by simp, by decide, unsigned _ (by simp), by simp⟩,
      ⟨by simp, by decide, unsigned _ (.inl rfl), ?_⟩, by simp⟩
    rintro range ⟨⟩
    exact ⟨unsigned _ (by simp), unsigned _ (by simp)⟩
  obtain ⟨pdu, marshalled, arrives⟩ := (accessRequests_arrive default 7).1 [element] sendable
  have short : (marshalReadRequestWithAccess 7 [element]).toOption.all (·.length < maxContent) =
      true := by
    decide +kernel
  rw [marshalled] at short
  obtain ⟨body, delivers, parsed⟩ :=
    arrives (expressible_of_length (by simpa [Except.toOption] using short))
  exact ⟨pdu, body, marshalled, delivers, parsed⟩

end GoMms.Pdu
