import GoMms.Iso.Stack

/-!
# Presentation frames

An MMS PDU comes out of its data frame as it went in. One that is too long for the length fields
of the presentation layer is refused, never changed. An ACSE PDU comes out of the connect PPDU
that carries it, whatever selectors and context lists stand in front of it.
-/

namespace GoMms.Presentation

open Berutil

section UserData

variable {contextID : Int64} {payload : Octets}

/-- The fields of a presentation data value list. -/
def pdvRecords (contextID : Int64) (payload : Octets) : List (UInt8 × Octets) :=
  [(0x02, encodeInt contextID), (0xa0, payload)]

/-- What the parser makes of one of them. -/
def storePdv (contextID : Int64) (state : ParsedPPDU × Bool) (record : UInt8 × Octets) :
    ParsedPPDU × Bool :=
  if record.1 = 0x02 then ({ state.1 with contextID := contextID }, true)
  else ({ state.1 with userData := record.2 }, state.2)

theorem parsePdvList_encode (result : ParsedPPDU)
    (readable : decodeInteger (encodeInt contextID) = .ok contextID)
    (fits : (encodeTLV 0x02 (encodeInt contextID) ++ encodeTLV 0xa0 payload).length < maxContent) :
    parsePdvList (encodeTLV 0x30
      (encodeTLV 0x02 (encodeInt contextID) ++ encodeTLV 0xa0 payload)) result =
      .ok { result with contextID := contextID, userData := payload } := by
  have shape : encodeTLV 0x02 (encodeInt contextID) ++ encodeTLV 0xa0 payload =
      encodeFields (pdvRecords contextID payload) := by
    simp [pdvRecords]
  have small : ∀ record ∈ pdvRecords contextID payload, record.2.length < maxContent :=
    length_lt_of_records (shape ▸ fits)
  have loop := offsetLoop_records (storePdv contextID) parsePdvField
    (fun _ rest => ∀ record ∈ rest, record ∈ pdvRecords contextID payload)
    (fun data offset state record rest known read => ?_) small (result, false) fun _ => id
  · rw [parsePdvList, decodeTLVExact_encodeTLV 0x30 fits]
    simp only [shape, loop, ne_eq, not_true_eq_false, if_false]
    simp [pdvRecords, storePdv]
  · obtain ⟨first, others⟩ := List.forall_mem_cons.mp known
    refine ⟨?_, others⟩
    rcases List.mem_pair.mp first with rfl | rfl
    · simp only [parsePdvField, read, if_true, readable, storePdv]
    · simp [parsePdvField, read, storePdv]

/-- The presentation data value list in user data. -/
def pdvList (contextID : Int64) (payload : Octets) : Octets :=
  encodeTLV 0x30 (encodeTLV 0x02 (encodeInt contextID) ++ encodeTLV 0xa0 payload)

theorem encodeUserData_eq (contextID : Int64) (payload : Octets) :
    encodeUserData contextID payload = encodeTLV 0x61 (pdvList contextID payload) := rfl

theorem parse_userData (contextID : Int64) (payload : Octets) :
    parse (encodeUserData contextID payload) =
      parseUserData (encodeTLV 0x61 (pdvList contextID payload)) := by
  obtain ⟨lead, rest, start⟩ := encodeTLV_eq_cons 0x61 (pdvList contextID payload)
  rw [encodeUserData_eq, start]
  rfl

theorem parse_encodeUserData (readable : decodeInteger (encodeInt contextID) = .ok contextID)
    (fits : (pdvList contextID payload).length < maxContent) :
    parse (encodeUserData contextID payload) =
      .ok { kind := .userData, contextID := contextID, userData := payload } := by
  have inner := length_le_encodeTLV 0x30
    (encodeTLV 0x02 (encodeInt contextID) ++ encodeTLV 0xa0 payload)
  rw [parse_userData, parseUserData, decodeTLVExact_encodeTLV 0x61 fits]
  exact parsePdvList_encode { kind := .userData } readable (inner.trans_lt fits)

/-- User data of machine size that is accepted is what was written. -/
theorem eq_of_parse_encodeUserData {ppdu : ParsedPPDU}
    (readable : decodeInteger (encodeInt contextID) = .ok contextID)
    (machine : (encodeUserData contextID payload).length < 256 ^ 8)
    (done : parse (encodeUserData contextID payload) = .ok ppdu) :
    ppdu = { kind := .userData, contextID := contextID, userData := payload } := by
  by_cases fits : (pdvList contextID payload).length < maxContent
  · rw [parse_encodeUserData readable fits] at done
    exact (Except.ok.inj done).symm
  · have outer := length_le_encodeTLV 0x61 (pdvList contextID payload)
    rw [encodeUserData_eq] at machine
    obtain ⟨text, refused⟩ := decodeTLVExact_encodeTLV_long 0x61 (Nat.not_lt.mp fits)
      (outer.trans_lt machine)
    rw [parse_userData, parseUserData, refused] at done
    cases done

end UserData

/-! ## Connect PPDUs -/

section Connecting

variable {acsePayload : Octets}

/-- What the parser keeps of a field in front of the user data. -/
def storeNormalMode (state : ParsedPPDU × Bool) (record : UInt8 × Octets) : ParsedPPDU × Bool :=
  if record.1 = 0xa5 then (state.1, true) else state

theorem foldl_storeNormalMode (records : List (UInt8 × Octets)) (state : ParsedPPDU × Bool) :
    records.foldl storeNormalMode state =
      (state.1, state.2 || records.any fun record => record.1 == 0xa5) := by
  induction records generalizing state with
  | nil => simp
  | cons record records ih =>
    rw [List.foldl_cons, ih, storeNormalMode, List.any_cons]
    by_cases noted : record.1 = 0xa5
    · simp [noted]
    · have other : (record.1 == 0xa5) = false := by simpa using noted
      simp [noted, other]

theorem decodeInteger_contextIDACSE :
    decodeInteger (encodeInt contextIDACSE) = .ok contextIDACSE := by
  decide +kernel

/-- Fields in front of the user data are skipped, but a context result list is noted. -/
theorem parseNormalMode_records {records : List (UInt8 × Octets)}
    (others : ∀ record ∈ records, record.1 ≠ 0x61)
    (fits : (encodeFields records ++ encodeUserData contextIDACSE acsePayload).length <
      maxContent) (result : ParsedPPDU) :
    parseNormalMode (encodeFields records ++ encodeUserData contextIDACSE acsePayload)
        (result, false) =
      .ok ({ result with contextID := contextIDACSE, userData := acsePayload },
        records.any fun record => record.1 == 0xa5) := by
  rw [List.length_append, encodeUserData_eq] at fits
  have list := length_le_encodeTLV 0x61 (pdvList contextIDACSE acsePayload)
  have inner := length_le_encodeTLV 0x30
    (encodeTLV 0x02 (encodeInt contextIDACSE) ++ encodeTLV 0xa0 acsePayload)
  have small : ∀ record ∈ records, record.2.length < maxContent := length_lt_of_records (by omega)
  have loop := offsetLoop_records_before storeNormalMode parseNormalModeField
    (fun _ rest => ∀ record ∈ rest, record.1 ≠ 0x61)
    (fun data offset state record rest skipped read => ?_) small
    (encodeUserData contextIDACSE acsePayload) (result, false) others
  · have read := decodeTLVAt_encodeTLV 0x61 (list.trans_lt (by omega) :
      (pdvList contextIDACSE acsePayload).length < maxContent)
      (encodeFields records) []
    have listed := parsePdvList_encode result decodeInteger_contextIDACSE
      (inner.trans_lt (list.trans_lt (by omega)))
    have positive := two_le_tlvSize (pdvList contextIDACSE acsePayload).length
    rw [List.append_nil] at read
    rw [parseNormalMode, loop, encodeUserData_eq, offsetLoop_stop]
    · simp only [List.length_append, length_encodeTLV]
      omega
    · rw [← pdvList] at listed
      simp only [parseNormalModeField, read, if_true, foldl_storeNormalMode, listed, Bool.false_or]
      rfl
  · obtain ⟨first, later⟩ := List.forall_mem_cons.mp skipped
    refine ⟨?_, later⟩
    simp only [parseNormalModeField, read, first, if_false, storeNormalMode]
    split <;> rfl

/-- The parser of connect PPDUs finds the normal-mode parameters behind the mode selector. -/
theorem parse_encodeConnectPPDU {normalMode : Octets} {state : ParsedPPDU × Bool}
    (fits : (encodeConnectPPDU normalMode).length < maxContent)
    (parsed : parseNormalMode normalMode ({ kind := .cp }, false) = .ok state) :
    parse (encodeConnectPPDU normalMode) =
      .ok (if state.2 then { state.1 with kind := .cpa } else state.1) := by
  have whole := length_le_encodeTLV 0x31
    (encodeTLV 0xa0 [0x80, 0x01, 0x01] ++ encodeTLV 0xa2 normalMode)
  have content : (encodeTLV 0xa0 [0x80, 0x01, 0x01] ++ encodeTLV 0xa2 normalMode).length <
      maxContent := whole.trans_lt fits
  have small : ∀ record ∈ [((0xa0 : UInt8), [0x80, 0x01, 0x01]), (0xa2, normalMode)],
      record.2.length < maxContent :=
    length_lt_of_records (by simpa using content)
  have loop := offsetLoop_records (fun before record => if record.1 = 0xa2 then state else before)
    parseConnectField
    (fun before rest => rest = [] ∨ before = ({ kind := .cp }, false) ∧
      (rest = [(0xa0, [0x80, 0x01, 0x01]), (0xa2, normalMode)] ∨ rest = [(0xa2, normalMode)]))
    (fun data offset before record rest ready read => ?_) small ({ kind := .cp }, false)
    (.inr ⟨rfl, .inl rfl⟩)
  · obtain ⟨lead, rest, shape⟩ := encodeTLV_eq_cons 0x31
      (encodeTLV 0xa0 [0x80, 0x01, 0x01] ++ encodeTLV 0xa2 normalMode)
    have dispatch : parse (encodeConnectPPDU normalMode) =
        parseCPorCPA (encodeConnectPPDU normalMode) := by
      rw [encodeConnectPPDU, shape]
      rfl
    simp only [encodeFields_cons, encodeFields_nil, List.append_nil] at loop
    rw [dispatch, parseCPorCPA, encodeConnectPPDU, decodeTLVExact_encodeTLV 0x31 content]
    simp only [loop]
    simp
  · rcases ready with impossible | ⟨rfl, selector | parameters⟩
    · cases impossible
    · cases selector
      exact ⟨by simp [parseConnectField, read], .inr ⟨by simp, .inr rfl⟩⟩
    · cases parameters
      exact ⟨by simp [parseConnectField, read, parsed], .inl rfl⟩

/-- A connect PPDU gives its ACSE payload back; its kind depends on the fields in front. -/
theorem parse_connectFields {fields : List (UInt8 × Octets)}
    (others : ∀ record ∈ fields, record.1 ≠ 0x61)
    (fits : (encodeConnectPPDU (encodeFields fields ++
      encodeUserData contextIDACSE acsePayload)).length < maxContent) :
    parse (encodeConnectPPDU (encodeFields fields ++ encodeUserData contextIDACSE acsePayload)) =
      .ok { kind := if fields.any fun record => record.1 == 0xa5 then .cpa else .cp
            contextID := contextIDACSE, userData := acsePayload } := by
  have outer := length_le_encodeTLV 0x31 (encodeTLV 0xa0 [0x80, 0x01, 0x01] ++
    encodeTLV 0xa2 (encodeFields fields ++ encodeUserData contextIDACSE acsePayload))
  have inner := length_le_encodeTLV 0xa2
    (encodeFields fields ++ encodeUserData contextIDACSE acsePayload)
  have short : (encodeFields fields ++ encodeUserData contextIDACSE acsePayload).length <
      maxContent := by
    rw [encodeConnectPPDU] at fits
    rw [List.length_append] at outer
    omega
  rw [parse_encodeConnectPPDU fits (parseNormalMode_records others short { kind := .cp })]
  simp only
  split <;> rfl

/-- The fields in front of the user data of a CP. -/
def cpFields (p : ConnectParams) : List (UInt8 × Octets) :=
  (if p.callingSelector.length > 0 then [(0x81, p.callingSelector)] else []) ++
    (if p.calledSelector.length > 0 then [(0x82, p.calledSelector)] else []) ++
    [(0xa4, encodeContextDef contextIDACSE oidACSE oidBER ++
      encodeContextDef contextIDMMS oidMMS oidBER)]

/-- The fields in front of the user data of a CPA. -/
def cpaFields (respondingSelector : Octets) : List (UInt8 × Octets) :=
  (if respondingSelector.length > 0 then [(0x83, respondingSelector)] else []) ++
    [(0xa5, encodeAcceptResult ++ encodeAcceptResult)]

theorem encodeCP_eq (p : ConnectParams) (acsePayload : Octets) :
    encodeCP p acsePayload = encodeConnectPPDU
      (encodeFields (cpFields p) ++ encodeUserData contextIDACSE acsePayload) := by
  unfold encodeCP cpFields
  split_ifs <;> simp [encodeContextDefinitionList, encodeUserData]

theorem encodeCPA_eq (respondingSelector acsePayload : Octets) :
    encodeCPA respondingSelector acsePayload =
      encodeConnectPPDU (encodeFields (cpaFields respondingSelector) ++
        encodeUserData contextIDACSE acsePayload) := by
  unfold encodeCPA cpaFields
  split_ifs <;> simp [encodeContextResultList, encodeUserData]

theorem parse_encodeCP {p : ConnectParams}
    (fits : (encodeCP p acsePayload).length < maxContent) :
    parse (encodeCP p acsePayload) =
      .ok { kind := .cp, contextID := contextIDACSE, userData := acsePayload } := by
  have others : ∀ record ∈ cpFields p, record.1 ≠ 0x61 := by
    unfold cpFields
    split_ifs <;> simp
  have request : (cpFields p).any (fun record => record.1 == 0xa5) = false := by
    unfold cpFields
    split_ifs <;> simp
  rw [encodeCP_eq] at fits ⊢
  rw [parse_connectFields others fits, request]
  rfl

theorem parse_encodeCPA {respondingSelector : Octets}
    (fits : (encodeCPA respondingSelector acsePayload).length < maxContent) :
    parse (encodeCPA respondingSelector acsePayload) =
      .ok { kind := .cpa, contextID := contextIDACSE, userData := acsePayload } := by
  have others : ∀ record ∈ cpaFields respondingSelector, record.1 ≠ 0x61 := by
    unfold cpaFields
    split_ifs <;> simp
  have response : (cpaFields respondingSelector).any (fun record => record.1 == 0xa5) = true := by
    unfold cpaFields
    split_ifs <;> simp
  rw [encodeCPA_eq] at fits ⊢
  rw [parse_connectFields others fits, response]
  rfl

/-- A payload is shorter than the connect PPDU that carries it. -/
theorem length_le_encodeConnectPPDU (fields acsePayload : Octets) :
    acsePayload.length ≤
      (encodeConnectPPDU (fields ++ encodeUserData contextIDACSE acsePayload)).length := by
  have outer := length_le_encodeTLV 0x31 (encodeTLV 0xa0 [0x80, 0x01, 0x01] ++
    encodeTLV 0xa2 (fields ++ encodeUserData contextIDACSE acsePayload))
  have normal := length_le_encodeTLV 0xa2 (fields ++ encodeUserData contextIDACSE acsePayload)
  have data := length_le_encodeTLV 0x61 (pdvList contextIDACSE acsePayload)
  have list := length_le_encodeTLV 0x30
    (encodeTLV 0x02 (encodeInt contextIDACSE) ++ encodeTLV 0xa0 acsePayload)
  have value := length_le_encodeTLV 0xa0 acsePayload
  rw [List.length_append] at outer normal list
  rw [encodeUserData_eq] at *
  rw [encodeConnectPPDU]
  unfold pdvList at *
  omega

end Connecting

theorem decodeInteger_contextIDMMS : decodeInteger (encodeInt contextIDMMS) = .ok contextIDMMS := by
  decide +kernel

end GoMms.Presentation

namespace GoMms.Isostack

open Berutil Presentation

variable {mmsPayload : Octets}

theorem decodeDataResponse_encodeDataRequest
    (fits : (encodeUserData contextIDMMS mmsPayload).length < maxContent) :
    decodeDataResponse (encodeDataRequest mmsPayload) = .ok mmsPayload := by
  have inner := length_le_encodeTLV 0x61 (pdvList contextIDMMS mmsPayload)
  rw [encodeUserData_eq] at fits
  simp only [decodeDataResponse, encodeDataRequest, Session.parse_encodeData,
    parse_encodeUserData decodeInteger_contextIDMMS (inner.trans_lt fits), ne_eq,
    not_true_eq_false, if_false]

/-- The presentation framing adds at most 33 octets. -/
theorem length_encodeUserData_le (word : mmsPayload.length < 2 ^ 63) :
    (encodeUserData contextIDMMS mmsPayload).length ≤ mmsPayload.length + 33 := by
  have id : (encodeTLV 0x02 (encodeInt contextIDMMS)).length = 3 := by decide +kernel
  have inner : tlvSize mmsPayload.length ≤ mmsPayload.length + 10 := tlvSize_le (by omega)
  have list : (pdvList contextIDMMS mmsPayload).length ≤ mmsPayload.length + 23 := by
    rw [pdvList, length_encodeTLV, List.length_append, id, length_encodeTLV]
    exact (tlvSize_le (by omega)).trans (by omega)
  rw [encodeUserData_eq, length_encodeTLV]
  exact (tlvSize_le (by omega)).trans (by omega)

/-- What is accepted from a data frame of machine size is the PDU it was made for. -/
theorem eq_of_decodeDataResponse {received : Octets}
    (machine : (encodeUserData contextIDMMS mmsPayload).length < 256 ^ 8)
    (done : decodeDataResponse (encodeDataRequest mmsPayload) = .ok received) :
    received = mmsPayload := by
  simp only [decodeDataResponse, encodeDataRequest, Session.parse_encodeData] at done
  split at done
  · cases done
  rename_i ppdu parsed
  obtain rfl := eq_of_parse_encodeUserData decodeInteger_contextIDMMS machine parsed
  simpa using done.symm

end GoMms.Isostack
