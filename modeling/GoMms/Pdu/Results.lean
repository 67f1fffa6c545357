import GoMms.Codec.Request
import GoMms.Pdu.DataRoundTrip
import GoMms.Pdu.VariableSpec

/-!
# Results and reports

The server's encoders for Read and Write responses and for information reports, against the
client's parsers. Every result arrives at its own index, whatever is echoed in front of the list.
-/

namespace GoMms.Pdu

open Berutil Codec

def tagDataAccessError : UInt8 := 0x80
def tagReadListOfAccessResult : UInt8 := 0xa1
def tagWriteFailure : UInt8 := 0x80
def tagWriteSuccess : UInt8 := 0x81
def tagInfoReport : UInt8 := 0xa0
def tagListOfVariable : UInt8 := 0xa0
def tagVariableListName : UInt8 := 0xa1
def tagListOfAccessResult : UInt8 := 0xa0
def tagSequenceInfoReport : UInt8 := 0x30
def tagUnconfirmed : UInt8 := 0xa3

def encodeSmallInt (v : Int64) : Octets := encodeInt v

/-- The two forms of the server's `AccessResult`: `IsError` with a code, or `Data`. -/
inductive AccessResult where
  | error (errorCode : Int64)
  | data (value : DataValue)

structure WriteResult where
  success : Bool
  code : Int64
  deriving DecidableEq, Repr

structure WriteResultItem where
  success : Bool := false
  errCode : Int64 := 0
  deriving DecidableEq, Repr

structure InformationReportWire where
  listName : Option ObjectNameWire := none
  vars : List ObjectNameWire := []
  values : List DataValue := []

/-! ## The server's side -/

section Encoding

variable (runtime : Runtime)

def encodeAccessResult : AccessResult → Except String Octets
  | .error errorCode => .ok (encodeTLV tagDataAccessError (encodeSmallInt errorCode))
  | .data value =>
    match marshalData runtime value with
    | .error text => .error ("read response: marshal data: " ++ text)
    | .ok encoded => .ok encoded

def encodeAccessResults : List AccessResult → Except String Octets
  | [] => .ok []
  | r :: results =>
    match encodeAccessResult runtime r with
    | .error text => .error text
    | .ok encoded =>
      match encodeAccessResults results with
      | .error text => .error text
      | .ok inner => .ok (encoded ++ inner)

def marshalReadResponse (results : List AccessResult) : Except String Octets :=
  match encodeAccessResults runtime results with
  | .error text => .error text
  | .ok inner => .ok (encodeTLV tagReadListOfAccessResult inner)

/-- The specification that `specificationWithResult` asks for, in its outer tag: the name of the
list, the variables, or nothing. -/
def encodeEcho (listName : Option ObjectNameWire) (specs : List VariableSpecWire) :
    Except String Octets :=
  match listName with
  | some listName =>
    match encodeObjectName listName with
    | .error text => .error ("read response: variableListName: " ++ text)
    | .ok nameBytes => .ok (encodeTLV 0xa0 (encodeTLV tagVarListName nameBytes))
  | none =>
    if specs.length > 0 then
      match encodeVariableSpecs 0 specs with
      | .error text => .error ("read response: " ++ text)
      | .ok varEntries => .ok (encodeTLV 0xa0 (encodeTLV tagListOfVar varEntries))
    else .ok []

def marshalReadResponseWithSpec (listName : Option ObjectNameWire)
    (specs : List VariableSpecWire) (results : List AccessResult) : Except String Octets :=
  match encodeEcho listName specs with
  | .error text => .error text
  | .ok body =>
    match encodeAccessResults runtime results with
    | .error text => .error text
    | .ok inner => .ok (body ++ encodeTLV tagReadListOfAccessResult inner)

def encodeWriteResult (r : WriteResult) : Octets :=
  if r.success then encodeTLV tagWriteSuccess []
  else encodeTLV tagWriteFailure (encodeSmallInt r.code)

def marshalWriteResponse (results : List WriteResult) : Octets :=
  results.flatMap encodeWriteResult

/-- The variables of a report from number `i` on. -/
def encodeReportVariables : (i : Nat) → List ObjectNameWire → Except String Octets
  | _, [] => .ok []
  | i, v :: vars =>
    match encodeObjectName v with
    | .error text => .error ("pdu: info report variable [" ++ toString i ++ "]: " ++ text)
    | .ok nameBytes =>
      match encodeReportVariables (i + 1) vars with
      | .error text => .error text
      | .ok entries =>
        .ok (encodeTLV tagSequenceInfoReport (encodeTLV tagVarSpecName nameBytes) ++ entries)

/-- The values of a report from number `i` on. -/
def encodeReportValues : (i : Nat) → List DataValue → Except String Octets
  | _, [] => .ok []
  | i, dv :: values =>
    match marshalData runtime dv with
    | .error text => .error ("pdu: info report value [" ++ toString i ++ "]: " ++ text)
    | .ok encoded =>
      match encodeReportValues (i + 1) values with
      | .error text => .error text
      | .ok resultEntries => .ok (encoded ++ resultEntries)

/-- What a report is about: the name of a list, or variables. -/
def encodeReportAccess (r : InformationReportWire) : Except String Octets :=
  match r.listName with
  | some listName =>
    match encodeObjectName listName with
    | .error text => .error ("pdu: info report list name: " ++ text)
    | .ok nameBytes => .ok (encodeTLV tagVariableListName nameBytes)
  | none =>
    match encodeReportVariables 0 r.vars with
    | .error text => .error text
    | .ok entries => .ok (encodeTLV tagListOfVariable entries)

def marshalInformationReport (r : InformationReportWire) : Except String Octets :=
  match encodeReportAccess r with
  | .error text => .error text
  | .ok content =>
    match encodeReportValues runtime 0 r.values with
    | .error text => .error text
    | .ok resultEntries =>
      .ok (encodeTLV tagUnconfirmed
        (encodeTLV tagInfoReport (content ++ encodeTLV tagListOfAccessResult resultEntries)))

end Encoding

/-! ## The client's side -/

section Decoding

variable (runtime : Runtime)

/-- The offset behind the optional variable access specification of a Read response. -/
def skipVarSpec (content : Octets) : Except String Nat :=
  if content.head? = some tagListOfVar then
    match decodeTLVAt content 0 with
    | .error text => .error ("pdu: read response: skip varspec: " ++ text)
    | .ok tlv => .ok tlv.consumed
  else .ok 0

def unmarshalReadResponse (content : Octets) : Except String (List DataValue) :=
  if content.length = 0 then .error "pdu: read response: empty content"
  else
    match skipVarSpec content with
    | .error text => .error text
    | .ok offset =>
      if offset ≥ content.length then .error "pdu: read response: missing access result list"
      else
        match decodeTLVAt content offset with
        | .error text => .error ("pdu: read response: list: " ++ text)
        | .ok list =>
          if list.tag ≠ tagReadListOfAccessResult then
            .error ("pdu: read response: expected listOfAccessResult [1] (0xa1), got 0x" ++
              hex02 list.tag)
          else if offset + list.consumed ≠ content.length then
            .error ("pdu: read response: " ++
              toString ((content.length : Int) - (offset + list.consumed : Nat)) ++
              " trailing bytes")
          else unmarshalAccessResults runtime list.content

/-- One pass of the loop of `UnmarshalWriteResponse`. -/
def writeResultPass (content : Octets) (results : List WriteResultItem) (offset : Nat) :
    Except String (LoopStep (List WriteResultItem)) :=
  match decodeTLVAt content offset with
  | .error text =>
    .error ("pdu: write response item [" ++ toString results.length ++ "]: " ++ text)
  | .ok tlv =>
    if tlv.tag = tagWriteSuccess then
      .ok (.next (results ++ [{ success := true }]) (offset + tlv.consumed))
    else if tlv.tag = tagWriteFailure then
      match decodeInteger tlv.content with
      | .error text => .error ("pdu: write response failure code: " ++ text)
      | .ok code => .ok (.next (results ++ [{ errCode := code }]) (offset + tlv.consumed))
    else .error ("pdu: write response: unexpected tag 0x" ++ hex02 tlv.tag)

def unmarshalWriteResponse (content : Octets) : Except String (List WriteResultItem) :=
  if content.length = 0 then .error "pdu: write response: empty content"
  else
    match offsetLoop content.length (writeResultPass content) [] 0 with
    | .error text => .error text
    | .ok (results, offset) =>
      if offset ≠ content.length then
        .error ("pdu: " ++ toString ((content.length : Int) - offset) ++
          " trailing bytes in write response")
      else .ok results

/-- The name in front of a variable specification; what follows it is not looked at. -/
def decodeVariableSpec (data : Octets) : Except String ObjectNameWire :=
  match decodeTLVAt data 0 with
  | .error text => .error ("variableSpec: " ++ text)
  | .ok tlv =>
    if tlv.tag ≠ 0xa0 then
      .error ("variableSpec: expected name [0] (0xa0), got 0x" ++ hex02 tlv.tag ++
        " (only 'name' supported)")
    else decodeObjectName tlv.content

/-- One pass of the loop of `decodeInfoReportListOfVariable`. -/
def reportVariablePass (data : Octets) (vars : List ObjectNameWire) (offset : Nat) :
    Except String (LoopStep (List ObjectNameWire)) :=
  match decodeTLVAt data offset with
  | .error text => .error ("pdu: info report variable [" ++ toString vars.length ++ "]: " ++ text)
  | .ok tlv =>
    if tlv.tag ≠ tagSequenceInfoReport then
      .error ("pdu: info report variable [" ++ toString vars.length ++
        "]: expected SEQUENCE (0x30), got 0x" ++ hex02 tlv.tag)
    else
      match decodeVariableSpec tlv.content with
      | .error text =>
        .error ("pdu: info report variable [" ++ toString vars.length ++ "]: " ++ text)
      | .ok name => .ok (.next (vars ++ [name]) (offset + tlv.consumed))

def decodeInfoReportListOfVariable (data : Octets) : Except String (List ObjectNameWire) :=
  match offsetLoop data.length (reportVariablePass data) [] 0 with
  | .error text => .error text
  | .ok (vars, _) => .ok vars

/-- The variable access specification of a report. -/
def decodeReportAccess (tag : UInt8) (content : Octets) :
    Except String (Option ObjectNameWire × List ObjectNameWire) :=
  if tag = tagListOfVariable then
    match decodeInfoReportListOfVariable content with
    | .error text => .error text
    | .ok vars => .ok (none, vars)
  else if tag = tagVariableListName then
    match decodeObjectName content with
    | .error text => .error ("pdu: info report variableListName: " ++ text)
    | .ok name => .ok (some name, [])
  else .error ("pdu: info report unknown variableAccessSpec tag 0x" ++ hex02 tag)

/-- The access results of a report, at `offset` of its content. -/
def decodeReportResults (irContent : Octets) (offset : Nat) : Except String (List DataValue) :=
  if offset ≥ irContent.length then .error "pdu: info report truncated (no listOfAccessResult)"
  else
    match decodeTLVAt irContent offset with
    | .error text => .error ("pdu: info report listOfAccessResult: " ++ text)
    | .ok res =>
      if res.tag ≠ tagListOfAccessResult then
        .error ("pdu: info report expected listOfAccessResult tag 0xa0, got 0x" ++ hex02 res.tag)
      else
        match unmarshalAccessResults runtime res.content with
        | .error text => .error ("pdu: info report values: " ++ text)
        | .ok values =>
          if offset + res.consumed ≠ irContent.length then
            .error ("pdu: " ++
              toString ((irContent.length : Int) - (offset + res.consumed : Nat)) ++
              " trailing bytes in InformationReport")
          else .ok values

/-- `UnmarshalInformationReport`, of the content of an UnconfirmedPDU. -/
def unmarshalInformationReport (unconfirmedContent : Octets) :
    Except String InformationReportWire :=
  if unconfirmedContent.length = 0 then .error "pdu: empty UnconfirmedPDU content"
  else
    match decodeTLV unconfirmedContent with
    | .error text => .error ("pdu: info report outer: " ++ text)
    | .ok (tag, irContent) =>
      if tag ≠ tagInfoReport then
        .error ("pdu: expected InformationReport tag 0xa0, got 0x" ++ hex02 tag)
      else if irContent.length = 0 then
        .error "pdu: info report truncated (no variableAccessSpec)"
      else
        match decodeTLVAt irContent 0 with
        | .error text => .error ("pdu: info report variableAccessSpec: " ++ text)
        | .ok vas =>
          match decodeReportAccess vas.tag vas.content with
          | .error text => .error text
          | .ok (listName, vars) =>
            match decodeReportResults runtime irContent vas.consumed with
            | .error text => .error text
            | .ok values => .ok ⟨listName, vars, values⟩

end Decoding

/-! ## Lists of results arrive -/

/-- The value the client sees of a result. -/
def AccessResult.value : AccessResult → DataValue
  | .error errorCode => .accessError errorCode
  | .data value => value

section Results

variable {runtime : Runtime}

variable {content : Octets}

theorem marshalDataList_cons_ok {head : DataValue} {rest : List DataValue}
    (encoded : marshalDataList runtime (head :: rest) = .ok content) :
    ∃ wire octets, marshalData runtime head = .ok wire ∧
      marshalDataList runtime rest = .ok octets ∧ content = wire ++ octets := by
  simp only [marshalDataList] at encoded
  split at encoded
  · cases encoded
  rename_i inner first
  split at encoded
  · cases encoded
  rename_i octets following
  cases encoded
  exact ⟨encodeTLV head.tag inner, octets, by simp only [marshalData, first], following, rfl⟩

/-- A code given as an error and one given as data have the same encoding. -/
theorem encodeAccessResult_eq {result : AccessResult} {wire : Octets}
    (encoded : marshalData runtime result.value = .ok wire) :
    encodeAccessResult runtime result = .ok wire := by
  cases result with
  | data value =>
    rw [AccessResult.value] at encoded
    simp only [encodeAccessResult, encoded]
  | error errorCode =>
    simp only [AccessResult.value, marshalData, marshalContent] at encoded
    split at encoded
    · cases encoded
    rename_i content found
    split at found
    · cases found
    rename_i accepted
    have nonneg : 0 ≤ errorCode.toInt := by
      rw [Int64.lt_iff_toInt_lt] at accepted
      exact Int.not_lt.mp accepted
    cases found
    cases encoded
    rw [encodeUnsignedInt_toUInt64 nonneg]
    rfl

theorem encodeAccessResults_eq {results : List AccessResult}
    (encoded : marshalDataList runtime (results.map AccessResult.value) = .ok content) :
    encodeAccessResults runtime results = .ok content := by
  induction results generalizing content with
  | nil =>
    rw [List.map_nil, marshalDataList] at encoded
    rw [encodeAccessResults, encoded]
  | cons result results ih =>
    obtain ⟨wire, octets, first, following, rfl⟩ := marshalDataList_cons_ok encoded
    simp only [encodeAccessResults, encodeAccessResult_eq first, ih following]

theorem encodeReportValues_eq (i : Nat) {values : List DataValue}
    (encoded : marshalDataList runtime values = .ok content) :
    encodeReportValues runtime i values = .ok content := by
  induction values generalizing i content with
  | nil =>
    rw [marshalDataList] at encoded
    rw [encodeReportValues, encoded]
  | cons head rest ih =>
    obtain ⟨wire, octets, first, following, rfl⟩ := marshalDataList_cons_ok encoded
    simp only [encodeReportValues, first, ih (i + 1) following]

end Results

/-! ## Read responses -/

section Read

variable {runtime : Runtime} {listName : Option ObjectNameWire} {specs : List VariableSpecWire}

variable {echo : Octets}

theorem encodeEcho_ok (encoded : encodeEcho listName specs = .ok echo) :
    echo = [] ∨ ∃ content, echo = encodeTLV tagListOfVar content := by
  unfold encodeEcho at encoded
  split at encoded
  · split at encoded
    · cases encoded
    · cases encoded
      exact .inr ⟨_, rfl⟩
  · split at encoded
    · split at encoded
      · cases encoded
      · cases encoded
        exact .inr ⟨_, rfl⟩
    · cases encoded
      exact .inl rfl

/-- The variables are echoed only if there is no name of a list. -/
theorem encodeEcho_sendable (known : ∀ name ∈ listName, name.KnownScope)
    (sendable : listName = none → ∀ spec ∈ specs, spec.Sendable) :
    ∃ echo, encodeEcho listName specs = .ok echo := by
  cases listName with
  | some name =>
    obtain ⟨nameBytes, encoded, _⟩ := decodeObjectName_encode (known name rfl)
    simp only [encodeEcho, encoded]
    exact ⟨_, rfl⟩
  | none =>
    obtain ⟨entries, encoded, _⟩ := decodeVarSpecListFull_encode 0 (sendable rfl)
    simp only [encodeEcho, encoded]
    split <;> exact ⟨_, rfl⟩

/-- Whatever was echoed, the client finds the list behind it. -/
theorem skipVarSpec_encode (encoded : encodeEcho listName specs = .ok echo)
    (fits : echo.length < maxContent) (inner : Octets) :
    skipVarSpec (echo ++ encodeTLV tagReadListOfAccessResult inner) = .ok echo.length := by
  obtain rfl | ⟨content, rfl⟩ := encodeEcho_ok encoded
  · obtain ⟨size, rest, shape⟩ := encodeTLV_eq_cons tagReadListOfAccessResult inner
    rw [List.nil_append, shape, skipVarSpec, if_neg]
    · rfl
    · simp [tagReadListOfAccessResult, tagListOfVar]
  · have short := (length_le_encodeTLV tagListOfVar content).trans_lt fits
    have read := decodeTLVAt_first tagListOfVar short (encodeTLV tagReadListOfAccessResult inner)
    have lead : (encodeTLV tagListOfVar content ++
        encodeTLV tagReadListOfAccessResult inner).head? = some tagListOfVar := rfl
    simp only [skipVarSpec, lead, if_true, read, length_encodeTLV]

theorem unmarshalReadResponse_encode {inner : Octets}
    (encoded : encodeEcho listName specs = .ok echo)
    (fits : (echo ++ encodeTLV tagReadListOfAccessResult inner).length < maxContent) :
    unmarshalReadResponse runtime (echo ++ encodeTLV tagReadListOfAccessResult inner) =
      unmarshalAccessResults runtime inner := by
  have list := length_le_encodeTLV tagReadListOfAccessResult inner
  have positive := two_le_tlvSize inner.length
  rw [List.length_append] at fits
  have short : inner.length < maxContent := by omega
  have skipped := skipVarSpec_encode encoded (by omega) inner
  have read := decodeTLVAt_encodeTLV tagReadListOfAccessResult short echo []
  rw [List.append_nil] at read
  simp only [unmarshalReadResponse, skipped, read, ne_eq, not_true_eq_false, if_false,
    List.length_append, length_encodeTLV]
  rw [if_neg (by omega), if_neg (by omega)]

end Read

/-! ## Write responses -/

/-- What the client is told of a result: the code of a success is not sent. -/
def WriteResult.received (r : WriteResult) : WriteResultItem :=
  if r.success then { success := true } else { errCode := r.code }

/-- A failure carries a code that the client's decoder takes. -/
def WriteResult.Sendable (r : WriteResult) : Prop :=
  r.success = false → 0 ≤ r.code.toInt ∧ r.code.toInt < 2 ^ 31

section Write

variable {results : List WriteResult}

theorem writeResultPass_encode {r : WriteResult} (sendable : r.Sendable) (front rest : Octets)
    (found : List WriteResultItem) :
    writeResultPass (front ++ encodeWriteResult r ++ rest) found front.length =
      .ok (.next (found ++ [r.received]) (front.length + (encodeWriteResult r).length)) := by
  unfold encodeWriteResult WriteResult.received
  by_cases success : r.success
  · have read := decodeTLVAt_encodeTLV tagWriteSuccess
      (show ([] : Octets).length < maxContent by decide) front rest
    simp only [success, if_true, writeResultPass, read, length_encodeTLV]
  · have short : (encodeSmallInt r.code).length < maxContent :=
      (length_encodeInt_le r.code).trans_lt (by decide)
    have read := decodeTLVAt_encodeTLV tagWriteFailure short front rest
    obtain ⟨nonneg, small⟩ := sendable (by simpa using success)
    have code : decodeInteger (encodeSmallInt r.code) = .ok r.code :=
      decodeInteger_encodeInt (inInt32_of_nonneg nonneg small)
    have other : tagWriteFailure ≠ tagWriteSuccess := by decide
    simp only [success, Bool.false_eq_true, writeResultPass, read, other, if_true, if_false, code,
      length_encodeTLV]

theorem unmarshalWriteResponse_marshal (some : results ≠ [])
    (sendable : ∀ r ∈ results, r.Sendable) :
    unmarshalWriteResponse (marshalWriteResponse results) =
      .ok (results.map WriteResult.received) := by
  have filled (r : WriteResult) : encodeWriteResult r ≠ [] := by
    unfold encodeWriteResult
    split <;> simp [encodeTLV]
  have loop := offsetLoop_collect encodeWriteResult WriteResult.received writeResultPass results
    fun front rest found r member _ =>
      ⟨writeResultPass_encode (sendable r member) front rest found, filled r⟩
  have content : (marshalWriteResponse results).length ≠ 0 := by
    obtain ⟨r, others, rfl⟩ := List.exists_cons_of_ne_nil some
    simp [marshalWriteResponse, filled r]
  rw [unmarshalWriteResponse, if_neg content]
  simp only [marshalWriteResponse, loop, ne_eq, not_true_eq_false, if_false]

end Write

/-! ## Information reports -/

/-- What arrives of a report; variables next to a list name are not sent. -/
def InformationReportWire.received (r : InformationReportWire) : InformationReportWire where
  listName := r.listName.map ObjectNameWire.received
  vars := if r.listName.isSome then [] else r.vars.map ObjectNameWire.received
  values := r.values

/-- The names of the report can be encoded. -/
structure InformationReportWire.Named (r : InformationReportWire) : Prop where
  list : ∀ name ∈ r.listName, name.KnownScope
  vars : ∀ name ∈ r.vars, name.KnownScope

section Reports

variable {runtime : Runtime} {vars : List ObjectNameWire}

theorem decodeVariableSpec_encode {nameBytes : Octets} (fits : nameBytes.length < maxContent) :
    decodeVariableSpec (encodeTLV tagVarSpecName nameBytes) = decodeObjectName nameBytes := by
  simp only [decodeVariableSpec, decodeTLVAt_alone tagVarSpecName fits]
  exact if_neg fun differ => differ rfl

theorem encodeReportVariables_eq (i : Nat) (known : ∀ name ∈ vars, name.KnownScope) :
    ∃ items : List (ObjectNameWire × Octets), items.map Prod.fst = vars ∧
      encodeReportVariables i vars = .ok (items.flatMap fun item =>
        encodeTLV tagSequenceInfoReport (encodeTLV tagVarSpecName item.2)) ∧
      ∀ item ∈ items, item.2.length < maxContent →
        decodeObjectName item.2 = .ok item.1.received := by
  induction vars generalizing i with
  | nil => exact ⟨[], rfl, rfl, by simp⟩
  | cons name vars ih =>
    obtain ⟨first, others⟩ := List.forall_mem_cons.mp known
    obtain ⟨nameBytes, encoded, arrives⟩ := decodeObjectName_encode first
    obtain ⟨items, listed, following, rest⟩ := ih (i + 1) others
    refine ⟨(name, nameBytes) :: items, by rw [List.map_cons, listed], ?_,
      List.forall_mem_cons.mpr ⟨arrives, rest⟩⟩
    simp only [encodeReportVariables, encoded, following, List.flatMap_cons]

theorem decodeInfoReportListOfVariable_encode (known : ∀ name ∈ vars, name.KnownScope) :
    ∃ entries, encodeReportVariables 0 vars = .ok entries ∧ (entries.length < maxContent →
      decodeInfoReportListOfVariable entries = .ok (vars.map ObjectNameWire.received)) := by
  obtain ⟨items, listed, encoded, arrives⟩ := encodeReportVariables_eq 0 known
  refine ⟨_, encoded, fun fits => ?_⟩
  have loop := offsetLoop_collect
    (fun item => encodeTLV tagSequenceInfoReport (encodeTLV tagVarSpecName item.2))
    (fun item : ObjectNameWire × Octets => item.1.received) reportVariablePass items
    (fun front rest found item member _ => ?_)
  · rw [decodeInfoReportListOfVariable, loop, ← listed, List.map_map]
    rfl
  · have entry := (length_le_encodeTLV tagSequenceInfoReport
      (encodeTLV tagVarSpecName item.2)).trans_lt ((length_le_flatMap member fun item =>
        encodeTLV tagSequenceInfoReport (encodeTLV tagVarSpecName item.2)).trans_lt fits)
    have short := (length_le_encodeTLV tagVarSpecName item.2).trans_lt entry
    refine ⟨?_, by simp [encodeTLV]⟩
    simp only [reportVariablePass, decodeTLVAt_encodeTLV tagSequenceInfoReport entry front rest,
      ne_eq, not_true_eq_false, if_false, decodeVariableSpec_encode short,
      arrives item member short,
      length_encodeTLV]

/-- The access specification of a report is one record that decodes to what arrives of its
names. -/
theorem decodeReportAccess_encode {r : InformationReportWire} (named : r.Named) :
    ∃ tag content, encodeReportAccess r = .ok (encodeTLV tag content) ∧
      (content.length < maxContent →
        decodeReportAccess tag content = .ok (r.received.listName, r.received.vars)) := by
  unfold encodeReportAccess InformationReportWire.received
  cases listed : r.listName with
  | some name =>
    obtain ⟨nameBytes, encoded, arrives⟩ := decodeObjectName_encode (named.list name listed)
    refine ⟨tagVariableListName, nameBytes, by simp only [encoded], fun fits => ?_⟩
    rw [decodeReportAccess, if_neg (by decide), if_pos rfl]
    simp [arrives fits]
  | none =>
    obtain ⟨entries, encoded, arrives⟩ := decodeInfoReportListOfVariable_encode named.vars
    refine ⟨tagListOfVariable, entries, by simp only [encoded], fun fits => ?_⟩
    rw [decodeReportAccess, if_pos rfl]
    simp [arrives fits]

theorem decodeReportResults_encode (front : Octets) {resultEntries : Octets}
    {values : List DataValue} (fits : resultEntries.length < maxContent)
    (decoded : unmarshalAccessResults runtime resultEntries = .ok values) :
    decodeReportResults runtime (front ++ encodeTLV tagListOfAccessResult resultEntries)
      front.length = .ok values := by
  have read := decodeTLVAt_encodeTLV tagListOfAccessResult fits front []
  have positive := two_le_tlvSize resultEntries.length
  rw [List.append_nil] at read
  simp only [decodeReportResults, read, decoded, ne_eq, not_true_eq_false, if_false,
    List.length_append, length_encodeTLV]
  rw [if_neg (by omega)]

theorem decodePdu_unconfirmed {content : Octets} (fits : content.length < maxContent) :
    decodePdu (encodeTLV tagUnconfirmed content) = .ok (.unconfirmed, content) :=
  decodePdu_wrapConstructed (show (3 : Int64).toInt.toNat ≤ 30 by decide) rfl
    (fits.trans (by decide))

theorem unmarshalInformationReport_marshal {r : InformationReportWire} (named : r.Named)
    (readable : ∀ value ∈ r.values, ReadsBack runtime (maxDataNestingDepth + 1) value)
    (count : r.values.length ≤ maxAccessResults) :
    ∃ content, marshalInformationReport runtime r = .ok (encodeTLV tagUnconfirmed content) ∧
      (content.length < maxContent →
        unmarshalInformationReport runtime content = .ok r.received) := by
  obtain ⟨tag, access, encoded, arrives⟩ := decodeReportAccess_encode named
  obtain ⟨resultEntries, marshalled, decoded⟩ := accessResults_marshalDataList readable count
  set irContent := encodeTLV tag access ++ encodeTLV tagListOfAccessResult resultEntries
  refine ⟨encodeTLV tagInfoReport irContent, by simp only [marshalInformationReport, encoded,
    encodeReportValues_eq 0 marshalled, irContent], fun fits => ?_⟩
  have inside := (length_le_encodeTLV tagInfoReport irContent).trans_lt fits
  have whole : irContent.length =
      (encodeTLV tag access).length + (encodeTLV tagListOfAccessResult resultEntries).length :=
    List.length_append
  have accessLe := length_le_encodeTLV tag access
  have resultsLe := length_le_encodeTLV tagListOfAccessResult resultEntries
  have positive := two_le_tlvSize access.length
  have short : access.length < maxContent := by omega
  have first := decodeTLVAt_first tag short (encodeTLV tagListOfAccessResult resultEntries)
  have results := decodeReportResults_encode (encodeTLV tag access)
    (show resultEntries.length < maxContent by omega) decoded
  rw [length_encodeTLV] at results whole
  have nonempty : (encodeTLV tagInfoReport irContent).length ≠ 0 := by
    rw [length_encodeTLV]
    have outer := two_le_tlvSize irContent.length
    omega
  simp only [unmarshalInformationReport, nonempty, if_false,
    decodeTLV_encodeTLV tagInfoReport inside,
    ne_eq, not_true_eq_false]
  rw [if_neg (by omega)]
  simp only [irContent, first, arrives short, results]
  rfl

end Reports

/-- Client and server agree on results and reports: the access results of a Read response with or
without an echoed specification, the outcomes of a Write, and the names and values of a report
come out of the client's parsers as they went into the server's encoders. -/
theorem resultsAndReports_arrive (runtime : Runtime) :
    (∀ results : List AccessResult, results.length ≤ maxAccessResults →
      (∀ result ∈ results, ReadsBack runtime (maxDataNestingDepth + 1) result.value) →
      (∃ body, marshalReadResponse runtime results = .ok body ∧ (body.length < maxContent →
        unmarshalReadResponse runtime body = .ok (results.map AccessResult.value))) ∧
      (∀ listName specs, (∀ name ∈ listName, name.KnownScope) → (∀ spec ∈ specs, spec.Sendable) →
        ∃ body, marshalReadResponseWithSpec runtime listName specs results = .ok body) ∧
      ∀ listName specs body, marshalReadResponseWithSpec runtime listName specs results = .ok body →
        body.length < maxContent →
        unmarshalReadResponse runtime body = .ok (results.map AccessResult.value)) ∧
    (∀ results : List WriteResult, results ≠ [] → (∀ r ∈ results, r.Sendable) →
      unmarshalWriteResponse (marshalWriteResponse results) =
        .ok (results.map WriteResult.received)) ∧
    ∀ r : InformationReportWire, r.Named → r.values.length ≤ maxAccessResults →
      (∀ value ∈ r.values, ReadsBack runtime (maxDataNestingDepth + 1) value) →
      ∃ pdu content, marshalInformationReport runtime r = .ok pdu ∧
        pdu = encodeTLV tagUnconfirmed content ∧ (content.length < maxContent →
          decodePdu pdu = .ok (.unconfirmed, content) ∧
          unmarshalInformationReport runtime content = .ok r.received) := by
  refine ⟨fun results count readable => ?_,
    fun results some sendable => unmarshalWriteResponse_marshal some sendable,
    fun r named count readable => ?_⟩
  · have values : ∀ value ∈ results.map AccessResult.value,
        ReadsBack runtime (maxDataNestingDepth + 1) value := List.forall_mem_map.mpr readable
    obtain ⟨inner, marshalled, decoded⟩ :=
      accessResults_marshalDataList values (by rwa [List.length_map])
    have encoded := encodeAccessResults_eq marshalled
    refine ⟨⟨encodeTLV tagReadListOfAccessResult inner,
      by simp only [marshalReadResponse, encoded], fun fits => ?_⟩,
      fun listName specs known sendable => ?_, fun listName specs body produced fits => ?_⟩
    · have none : encodeEcho none [] = .ok [] := rfl
      exact (unmarshalReadResponse_encode none fits).trans decoded
    · obtain ⟨echo, echoed⟩ := encodeEcho_sendable known fun _ => sendable
      exact ⟨echo ++ encodeTLV tagReadListOfAccessResult inner,
        by simp only [marshalReadResponseWithSpec, echoed, encoded]⟩
    · simp only [marshalReadResponseWithSpec, encoded] at produced
      split at produced
      · cases produced
      rename_i echo echoed
      cases produced
      exact (unmarshalReadResponse_encode echoed fits).trans decoded
  · obtain ⟨content, marshalled, arrives⟩ := unmarshalInformationReport_marshal named readable count
    exact ⟨_, content, marshalled, rfl, fun fits => ⟨decodePdu_unconfirmed fits, arrives fits⟩⟩

theorem resultsAndReports_arrive_echoed :
    let listName : ObjectNameWire := { scope := scopeDomain, domainID := [0x4c], itemID := [0x4d] }
    let results : List AccessResult := [.error 10, .data (.boolean true), .data (.accessError 2)]
    ∃ body, marshalReadResponseWithSpec default (some listName) [] results = .ok body ∧
      unmarshalReadResponse default body =
        .ok [.accessError 10, .boolean true, .accessError 2] := by
  intro listName results
  have readable : ∀ result ∈ results,
      ReadsBack default (maxDataNestingDepth + 1) result.value := by
    simp only [results, List.forall_mem_cons]
    have first : marshalContent default (.accessError 10) = .ok [0x0a] := by
      simp only [marshalContent]
      rfl
    have second : marshalContent default (.boolean true) = .ok [0xff] := by
      simp only [marshalContent, if_true]
    have third : marshalContent default (.accessError 2) = .ok [0x02] := by
      simp only [marshalContent]
      rfl
    exact ⟨readsBack_of_content first (by decide) rfl,
      readsBack_of_content second (by decide) rfl,
      readsBack_of_content third (by decide) rfl, by simp⟩
  obtain ⟨_, encodes, arrives⟩ := (resultsAndReports_arrive default).1 results (by decide) readable
  obtain ⟨body, produced⟩ :=
    encodes (some listName) [] (by simp [listName, ObjectNameWire.KnownScope])
    (by simp)
  have short : (marshalReadResponseWithSpec default (some listName) [] results).toOption.all
      (·.length < maxContent) = true := by
    decide +kernel
  rw [produced] at short
  exact ⟨body, produced,
    arrives (some listName) [] body produced (by simpa [Except.toOption] using short)⟩

/-! ## What the client accepts as a report -/

section Accepted

variable {data : Octets}

variable {runtime : Runtime} {content : Octets} {report : InformationReportWire}

end Accepted

end GoMms.Pdu
