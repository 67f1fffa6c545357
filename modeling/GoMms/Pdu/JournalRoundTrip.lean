import GoMms.Pdu.AccessRequest
import GoMms.Pdu.Journal

/-!
# Journal round trips

Both forms of a ReadJournal request arrive with their instants cut to milliseconds. Of a response,
what its decoder makes is described exactly: the entries arrive one by one, each with its
identifier, its time cut to milliseconds and its variables, and the whole response is refused if
an identifier is empty or a value cannot be decoded.
-/

namespace GoMms

/-- The instant without the fraction of its millisecond. -/
def Instant.truncated (time : Instant) : Instant := .ofUnixMilli time.unixMilli.toInt

end GoMms

namespace GoMms.Pdu

open Octets Berutil Codec Tracing

/-! ## Times -/

/-- The instants from 1984-01-01 to the end of 2163-06-05. -/
def JournalTime (time : Instant) : Prop := 441763200 ≤ time.unix ∧ time.unix < 6104073600

namespace JournalTime

variable {time : Instant}

theorem toInt_unixMilli (inside : JournalTime time) :
    time.unixMilli.toInt = time.unix * 1000 + time.nanosecond / 1000000 := by
  obtain ⟨early, late⟩ := inside
  have below := time.below_second
  exact Int64.toInt_ofInt_of_le (by omega) (by omega)

theorem binaryTimeRange (inside : JournalTime time) : BinaryTimeRange time.unixMilli := by
  have ms := inside.toInt_unixMilli
  obtain ⟨early, late⟩ := inside
  have below := time.below_second
  rw [BinaryTimeRange, ms, binaryTimeMaxMs, binaryTimeMinMs, msPerDay]
  omega

theorem unix_truncated (inside : JournalTime time) : time.truncated.unix = time.unix := by
  have below := time.below_second
  rw [Instant.truncated, inside.toInt_unixMilli]
  simp only [Instant.ofUnixMilli, Instant.ofUnix]
  omega

theorem nanosecond_truncated (inside : JournalTime time) :
    time.truncated.nanosecond = time.nanosecond / 1000000 * 1000000 := by
  have below := time.below_second
  rw [Instant.truncated, inside.toInt_unixMilli]
  simp only [Instant.ofUnixMilli, Instant.ofUnix]
  omega

theorem truncated_isZero (inside : JournalTime time) : time.truncated.isZero = false := by
  have unix := inside.unix_truncated
  obtain ⟨early, -⟩ := inside
  rw [Instant.isZero, unix]
  have later : (time.unix == -62135596800) = false := by
    rw [beq_eq_false_iff_ne]
    omega
  rw [later, Bool.false_and]

end JournalTime

section Requests

variable {runtime : Runtime} {domain journal : Octets}

variable {time : Instant} {content : Octets}

/-- A time that is encoded is read back without the fraction of its millisecond. -/
theorem decodeTimeOfDay_encode
    (encoded : encodeBinaryTimeChecked runtime time.unixMilli = .ok content) :
    decodeTimeOfDay content = .ok time.truncated := by
  obtain ⟨octets, same, decoded⟩ := decodeBinaryTime_encodeBinaryTimeChecked runtime
    ((encodeBinaryTimeChecked_ok_iff _).mp ⟨content, encoded⟩)
  cases encoded.symm.trans same
  rw [decodeTimeOfDay, decoded]
  rfl

variable {ms : Int64}

theorem length_encodeBinaryTimeChecked_le
    (encoded : encodeBinaryTimeChecked runtime ms = .ok content) : content.length ≤ 6 := by
  unfold encodeBinaryTimeChecked at encoded
  split at encoded
  · cases encoded
    rw [length_beOctets]
    decide
  · split at encoded
    · cases encoded
    · cases encoded
      rw [encodeBinaryTime, List.length_append, length_beOctets, length_beOctets]

/-! ## Requests -/

/-- The name of a journal arrives. -/
theorem encodeJournalName_ok (some : journal ≠ []) (domainShort : domain.length ≤ 1024)
    (journalShort : journal.length ≤ 1024) :
    ∃ name, encodeJournalName domain journal = .ok (encodeTLV 0xa0 name) ∧ name.length ≤ 2100 ∧
      decodeObjectName name =
        .ok { scope := scopeDomain, domainID := domain, itemID := journal } := by
  have domainSize := length_encodeTLV_le tagVisibleString (domainShort.trans_lt
    (show 1024 < 256 ^ 8 by decide))
  have journalSize := length_encodeTLV_le tagVisibleString (journalShort.trans_lt
    (show 1024 < 256 ^ 8 by decide))
  have content : (encodeDomainSpecific domain journal).length ≤ 2068 := by
    rw [encodeDomainSpecific, List.length_append]
    omega
  have encoded : encodeObjectName { scope := scopeDomain, domainID := domain, itemID := journal } =
      .ok (encodeTLV 0xa1 (encodeDomainSpecific domain journal)) := rfl
  refine ⟨_, by rw [encodeJournalName, if_neg some, encoded], ?_, ?_⟩
  · exact (length_encodeTLV_le 0xa1 (content.trans_lt (by decide))).trans (by omega)
  · obtain ⟨octets, same, decoded⟩ := decodeObjectName_encode_domain
      (show ObjectNameWire.scope { scope := scopeDomain, domainID := domain, itemID := journal } =
        scopeDomain from rfl) (show wireContentLength _ < maxContent from
          content.trans_lt (by decide))
    cases encoded.symm.trans same
    exact decoded

/-- A range specification of a request. -/
theorem decodeTimeField_encode
    (encoded : encodeBinaryTimeChecked runtime time.unixMilli = .ok content) :
    decodeTimeField (encodeTLV 0x80 content) = .ok time.truncated := by
  have short := length_encodeBinaryTimeChecked_le encoded
  have found := findField_encodeTLV "" 0x80 (short.trans_lt (show 6 < maxContent by decide)) []
  rw [List.append_nil] at found
  rw [decodeTimeField, found]
  exact decodeTimeOfDay_encode encoded

theorem length_timeField_le (encoded : encodeBinaryTimeChecked runtime ms = .ok content) :
    (encodeTLV 0x80 content).length ≤ 8 := by
  have short := length_encodeBinaryTimeChecked_le encoded
  rw [length_encodeTLV_short 0x80 (short.trans_lt (by decide))]
  omega

theorem readJournalTimeRange_arrives (invokeID : UInt32) (some : journal ≠ [])
    (domainShort : domain.length ≤ 1024) (journalShort : journal.length ≤ 1024)
    {start stop : Instant} (startInside : JournalTime start) (stopInside : JournalTime stop) :
    ∃ pdu, marshalReadJournalTimeRange runtime invokeID domain journal start stop = .ok pdu ∧
      ArrivesAs pdu invokeID tagNumReadJournal unmarshalReadJournalRequest
        { domain := domain, journal := journal, isTimeRange := true,
          startTime := start.truncated, stopTime := stop.truncated } := by
  obtain ⟨name, named, nameShort, nameRead⟩ := encodeJournalName_ok some domainShort journalShort
  obtain ⟨startBin, startMade⟩ : ∃ octets, encodeBinaryTimeChecked runtime start.unixMilli =
    .ok octets := (encodeBinaryTimeChecked_ok_iff _).mpr startInside.binaryTimeRange
  obtain ⟨stopBin, stopMade⟩ : ∃ octets, encodeBinaryTimeChecked runtime stop.unixMilli =
    .ok octets := (encodeBinaryTimeChecked_ok_iff _).mpr stopInside.binaryTimeRange
  have startSize := length_timeField_le startMade
  have stopSize := length_timeField_le stopMade
  rw [marshalReadJournalTimeRange, named, startMade, stopMade]
  refine ⟨_, rfl, arrivesAs_marshalConfirmedRequest (by decide) ?_ ?_⟩
  · have nameSize := length_encodeTLV_le 0xa0 (nameShort.trans_lt (show 2100 < 256 ^ 8 by decide))
    have startRecord := length_encodeTLV_short 0xa1 (startSize.trans_lt (by decide))
    have stopRecord := length_encodeTLV_short 0xa2 (stopSize.trans_lt (by decide))
    rw [List.length_append, List.length_append, startRecord, stopRecord, maxContent]
    omega
  · rw [unmarshalReadJournalRequest, decodeFields_triple _ _ (nameShort.trans_lt (by decide))
      (startSize.trans_lt (by decide)) (stopSize.trans_lt (by decide))]
    simp only [readJournalRequestField, nameRead, Except.bind, decodeTimeField_encode startMade,
      decodeTimeField_encode stopMade, show ¬(0xa1 : UInt8) = 0xa0 by decide,
      show ¬(0xa2 : UInt8) = 0xa0 by decide, show ¬(0xa2 : UInt8) = 0xa1 by decide, if_true,
      if_false]
    simp [checkReadJournalRequest, some, startInside.truncated_isZero, stopInside.truncated_isZero]

theorem decodeStartAfter_encode {timeBin afterID : Octets}
    (made : encodeBinaryTimeChecked runtime time.unixMilli = .ok timeBin)
    (short : afterID.length < maxContent) (req : ReadJournalRequest) :
    decodeStartAfter (encodeTLV 0x80 timeBin ++ encodeTLV 0x81 afterID) req =
      .ok { req with afterTime := time.truncated, afterID := afterID } := by
  have timeShort := length_encodeBinaryTimeChecked_le made
  rw [decodeStartAfter, decodeFields_pair _ _ (timeShort.trans_lt (by decide)) short]
  simp only [startAfterField, if_true, decodeTimeOfDay_encode made, Except.bind,
    show ¬(0x81 : UInt8) = 0x80 by decide, if_false]
  rfl

/-- A start-after request is little longer than its identifier, and arrives if it is short enough
for the decoders. -/
theorem readJournalStartAfter_payload (invokeID : UInt32) (some : journal ≠ [])
    (domainShort : domain.length ≤ 1024) (journalShort : journal.length ≤ 1024)
    {afterTime : Instant} (inside : JournalTime afterTime) (afterID : Octets) :
    ∃ payload, marshalReadJournalStartAfter runtime invokeID domain journal afterTime afterID =
        .ok (marshalConfirmedRequest invokeID tagNumReadJournal true payload) ∧
      (afterID.length < maxContent → payload.length ≤ afterID.length + 2138) ∧
      (payload.length < maxContent →
        ArrivesAs (marshalConfirmedRequest invokeID tagNumReadJournal true payload) invokeID
          tagNumReadJournal unmarshalReadJournalRequest
          { domain := domain, journal := journal, isStartAfter := true,
            afterTime := afterTime.truncated, afterID := afterID }) := by
  obtain ⟨name, named, nameShort, nameRead⟩ := encodeJournalName_ok some domainShort journalShort
  obtain ⟨timeBin, made⟩ : ∃ octets, encodeBinaryTimeChecked runtime afterTime.unixMilli =
    .ok octets := (encodeBinaryTimeChecked_ok_iff _).mpr inside.binaryTimeRange
  rw [marshalReadJournalStartAfter, named, made]
  refine ⟨_, rfl, fun idShort => ?_, fun short => ?_⟩
  · have most : maxContent = 16777216 := rfl
    have time := length_timeField_le made
    have outerName := length_encodeTLV_le 0xa0 (show name.length < 256 ^ 8 by omega)
    have id := length_encodeTLV_le 0x81 (show afterID.length < 256 ^ 8 by omega)
    have cursor := length_encodeTLV_le 0xa5
      (show (encodeTLV 0x80 timeBin ++ encodeTLV 0x81 afterID).length < 256 ^ 8 by
        rw [List.length_append]
        omega)
    rw [List.length_append] at cursor ⊢
    omega
  · have cursor : (encodeTLV 0x80 timeBin ++ encodeTLV 0x81 afterID).length < maxContent := by
      rw [List.length_append] at short
      exact (length_le_encodeTLV 0xa5 _).trans_lt ((Nat.le_add_left _ _).trans_lt short)
    have idShort : afterID.length < maxContent := by
      rw [List.length_append] at cursor
      exact (length_le_encodeTLV 0x81 _).trans_lt ((Nat.le_add_left _ _).trans_lt cursor)
    refine arrivesAs_marshalConfirmedRequest (by decide) short ?_
    rw [unmarshalReadJournalRequest, decodeFields_pair _ _ (nameShort.trans_lt (by decide)) cursor]
    simp only [readJournalRequestField, if_true, nameRead, Except.bind,
      show ¬(0xa5 : UInt8) = 0xa0 by decide, show ¬(0xa5 : UInt8) = 0xa1 by decide,
      show ¬(0xa5 : UInt8) = 0xa2 by decide, if_false, decodeStartAfter_encode made idShort]
    simp [checkReadJournalRequest, some]

end Requests

/-! ## Responses -/

section Responses

variable {runtime : Runtime} {quote : Octets → String}

/-- What the client may find for a variable: its tag and what its value decodes to. -/
def VariableArrives (runtime : Runtime) (var found : JournalVariableWire) : Prop :=
  found.tag = var.tag ∧ ∃ wire consumed, marshalData runtime var.value = .ok wire ∧
    unmarshalDataElement runtime wire 0 = .ok (found.value, consumed)

/-- What the client may find for an entry. -/
structure EntryArrives (runtime : Runtime) (entry found : JournalEntryWire) : Prop where
  named : entry.entryID ≠ []
  entryID : found.entryID = entry.entryID
  occurrenceTime : found.occurrenceTime = entry.occurrenceTime.truncated
  vars : List.Forall₂ (VariableArrives runtime) entry.vars found.vars

/-- The content of a variable. -/
def variableContent (runtime : Runtime) (var : JournalVariableWire) : Except String Octets :=
  (marshalData runtime var.value).map fun valueBytes =>
    encodeTLV 0x80 var.tag ++ encodeTLV 0xa1 valueBytes

theorem marshalJournalVariable_iff (var : JournalVariableWire) (part : Octets) :
    marshalJournalVariable runtime quote var = .ok part ↔
      ∃ content, variableContent runtime var = .ok content ∧ part = encodeTLV 0x30 content := by
  rw [marshalJournalVariable, variableContent]
  cases marshalData runtime var.value with
  | error text => simp [Except.map]
  | ok valueBytes => simp [Except.map, eq_comm]

theorem parseJournalVariable_iff (var : JournalVariableWire) (content : Octets)
    (found : JournalVariableWire) (made : variableContent runtime var = .ok content)
    (short : content.length < maxContent) :
    parseJournalVariable runtime content = .ok found ↔ VariableArrives runtime var found := by
  rw [variableContent] at made
  cases encoded : marshalData runtime var.value with
  | error text => simp [encoded, Except.map] at made
  | ok wire =>
    simp only [encoded, Except.map, Except.ok.injEq] at made
    subst made
    rw [List.length_append] at short
    have tagShort := (length_le_encodeTLV 0x80 var.tag).trans_lt
      ((Nat.le_add_right _ _).trans_lt short)
    have valueShort := (length_le_encodeTLV 0xa1 wire).trans_lt
      ((Nat.le_add_left _ _).trans_lt short)
    rw [parseJournalVariable, decodeFields_pair _ _ tagShort valueShort, VariableArrives, encoded]
    simp only [journalVariableField, if_true, Except.bind,
      show ¬(0xa1 : UInt8) = 0x80 by decide, if_false]
    obtain ⟨foundTag, foundValue⟩ := found
    cases read : unmarshalDataElement runtime wire 0 with
    | error text => simp [read]
    | ok decoded =>
      obtain ⟨value, consumed⟩ := decoded
      simp [read, eq_comm]

theorem journalVariablesField_iff (found : List JournalVariableWire) (content : Octets)
    (result : List JournalVariableWire) :
    journalVariablesField runtime found 0x30 content = .ok result ↔
      ∃ parsed, parseJournalVariable runtime content = .ok parsed ∧ result = found ++ [parsed] := by
  rw [journalVariablesField, if_neg (by simp)]
  cases parseJournalVariable runtime content with
  | error text => simp
  | ok parsed => simp [eq_comm]

theorem parseJournalVariables_iff {vars found : List JournalVariableWire} {octets : Octets}
    (encoded : encodeAll (marshalJournalVariable runtime quote) vars = .ok octets)
    (short : octets.length < maxContent) :
    parseJournalVariables runtime octets = .ok found ↔
      List.Forall₂ (VariableArrives runtime) vars found :=
  decodeFields_encodeAll_iff _ marshalJournalVariable_iff
    (fun found content result _ => journalVariablesField_iff found content result)
    parseJournalVariable_iff (Nat.le_refl _) encoded short

/-- The content of an entry. -/
def journalEntryContent (runtime : Runtime) (quote : Octets → String) (entry : JournalEntryWire) :
    Except String Octets :=
  match encodeBinaryTimeChecked runtime entry.occurrenceTime.unixMilli with
  | .error text => .error text
  | .ok occurrenceBin =>
    (encodeAll (marshalJournalVariable runtime quote) entry.vars).map fun varBytes =>
      encodeTLV 0x80 entry.entryID ++ emptyOriginatingApplication ++
        encodeTLV 0xa2 (encodeTLV 0x80 occurrenceBin ++ encodeTLV 0xa2 (encodeTLV 0xa1 varBytes))

theorem marshalJournalEntry_iff (entry : JournalEntryWire) (part : Octets) :
    marshalJournalEntry runtime quote entry = .ok part ↔
      ∃ content, journalEntryContent runtime quote entry = .ok content ∧
        part = encodeTLV 0x30 content := by
  rw [marshalJournalEntry, journalEntryContent]
  cases encodeBinaryTimeChecked runtime entry.occurrenceTime.unixMilli with
  | error text => simp
  | ok occurrenceBin =>
    cases encodeAll (marshalJournalVariable runtime quote) entry.vars with
    | error text => simp [Except.map]
    | ok varBytes => simp [Except.map, eq_comm]

variable {time : Instant} {occurrenceBin varBytes : Octets} {entry : JournalEntryWire}

theorem parseEntryContent_encode
    (made : encodeBinaryTimeChecked runtime time.unixMilli = .ok occurrenceBin)
    (short : (encodeTLV 0xa1 varBytes).length < maxContent) (entry : JournalEntryWire) :
    parseEntryContent runtime
        (encodeTLV 0x80 occurrenceBin ++ encodeTLV 0xa2 (encodeTLV 0xa1 varBytes)) entry =
      match parseJournalVariables runtime varBytes with
      | .error text => .error text
      | .ok vars => .ok { entry with occurrenceTime := time.truncated, vars := vars } := by
  have timeShort := length_encodeBinaryTimeChecked_le made
  have varShort := (length_le_encodeTLV 0xa1 varBytes).trans_lt short
  have found := findField_encodeTLV "pdu: journal data: " 0xa1 varShort []
  rw [List.append_nil] at found
  rw [parseEntryContent, decodeFields_pair _ _ (timeShort.trans_lt (by decide)) short]
  simp only [entryContentField, if_true, decodeTimeOfDay_encode made, Except.bind,
    show ¬(0xa2 : UInt8) = 0x80 by decide, if_false, parseJournalData, found]
  cases parseJournalVariables runtime varBytes <;> rfl

theorem parseJournalEntry_encode {entryID : Octets}
    (made : encodeBinaryTimeChecked runtime time.unixMilli = .ok occurrenceBin)
    (idShort : entryID.length < maxContent) (short : (encodeTLV 0x80 occurrenceBin ++
      encodeTLV 0xa2 (encodeTLV 0xa1 varBytes)).length < maxContent) :
    parseJournalEntry runtime (encodeTLV 0x80 entryID ++ emptyOriginatingApplication ++
        encodeTLV 0xa2 (encodeTLV 0x80 occurrenceBin ++ encodeTLV 0xa2 (encodeTLV 0xa1 varBytes))) =
      match parseJournalVariables runtime varBytes with
      | .error text => .error text
      | .ok vars =>
        if entryID = [] then .error "pdu: journal entry: missing entryID"
        else .ok ⟨entryID, time.truncated, vars⟩ := by
  have dataShort : (encodeTLV 0xa1 varBytes).length < maxContent := by
    rw [List.length_append] at short
    exact (length_le_encodeTLV 0xa2 _).trans_lt ((Nat.le_add_left _ _).trans_lt short)
  have application : emptyOriginatingApplication = encodeTLV 0xa1 [0x30, 0x00] := by decide
  rw [parseJournalEntry, application, decodeFields_triple _ _ idShort (by decide) short]
  simp only [journalEntryField, if_true, Except.bind,
    show ¬(0xa1 : UInt8) = 0x80 by decide, show ¬(0xa2 : UInt8) = 0x80 by decide,
    show ¬(0xa2 : UInt8) = 0xa1 by decide, if_false, parseEntryContent_encode made dataShort]
  cases parseJournalVariables runtime varBytes <;> rfl

theorem parseJournalEntry_iff (entry : JournalEntryWire) (content : Octets)
    (found : JournalEntryWire) (made : journalEntryContent runtime quote entry = .ok content)
    (short : content.length < maxContent) :
    parseJournalEntry runtime content = .ok found ↔ EntryArrives runtime entry found := by
  rw [journalEntryContent] at made
  cases timeMade : encodeBinaryTimeChecked runtime entry.occurrenceTime.unixMilli with
  | error text => simp [timeMade] at made
  | ok occurrenceBin =>
    cases varsMade : encodeAll (marshalJournalVariable runtime quote) entry.vars with
    | error text => simp [timeMade, varsMade, Except.map] at made
    | ok varBytes =>
      simp only [timeMade, varsMade, Except.map, Except.ok.injEq] at made
      subst made
      rw [List.length_append, List.length_append] at short
      have idShort : entry.entryID.length < maxContent :=
        (length_le_encodeTLV 0x80 _).trans_lt (by omega)
      have bodyShort : (encodeTLV 0x80 occurrenceBin ++
          encodeTLV 0xa2 (encodeTLV 0xa1 varBytes)).length < maxContent :=
        (length_le_encodeTLV 0xa2 _).trans_lt (by omega)
      have varShort : varBytes.length < maxContent := by
        rw [List.length_append] at bodyShort
        have inner := length_le_encodeTLV 0xa2 (encodeTLV 0xa1 varBytes)
        exact (length_le_encodeTLV 0xa1 varBytes).trans_lt (by omega)
      rw [parseJournalEntry_encode timeMade idShort bodyShort]
      have vars := fun found =>
        @parseJournalVariables_iff runtime quote _ found _ varsMade varShort
      constructor
      · intro parsed
        split at parsed
        · cases parsed
        rename_i list read
        split at parsed
        · cases parsed
        rename_i named
        cases parsed
        exact ⟨named, rfl, rfl, (vars list).mp read⟩
      · rintro ⟨named, sameID, sameTime, arrive⟩
        obtain ⟨foundID, foundTime, foundVars⟩ := found
        subst sameID sameTime
        rw [(vars foundVars).mpr arrive]
        exact if_neg named

/-- The entries of an encoded list, if there is room for them. -/
theorem parseJournalEntries_iff {entries found : List JournalEntryWire} {octets : Octets}
    (encoded : encodeAll (marshalJournalEntry runtime quote) entries = .ok octets)
    (few : entries.length ≤ maxJournalEntries) (short : octets.length < maxContent) :
    parseJournalEntries runtime octets = .ok found ↔
      List.Forall₂ (EntryArrives runtime) entries found := by
  refine decodeFields_encodeAll_iff _ marshalJournalEntry_iff ?_ parseJournalEntry_iff few encoded
    short
  intro found content result room
  rw [journalEntriesField, if_neg (by simp)]
  cases parseJournalEntry runtime content with
  | error text => simp
  | ok parsed =>
    have fits : ¬(found ++ [parsed]).length > maxJournalEntries := by
      rw [List.length_append, List.length_singleton]
      exact not_lt.mpr room
    simp only [fits, if_false]
    simp [eq_comm]

/-- The response is its list of entries and a flag. -/
theorem unmarshalReadJournalResponse_encode {list : Octets} (short : list.length < maxContent)
    (moreFollows : Bool) :
    unmarshalReadJournalResponse runtime
        (encodeTLV 0xa0 list ++ if moreFollows then encodeTLV 0x81 [0xff] else []) =
      match parseJournalEntries runtime list with
      | .error text => .error text
      | .ok entries => .ok (entries, moreFollows) := by
  cases moreFollows with
  | true =>
    rw [unmarshalReadJournalResponse, if_pos rfl, decodeFields_pair _ _ short (by decide)]
    simp only [readJournalResponseField, if_true]
    cases parseJournalEntries runtime list <;> rfl
  | false =>
    rw [unmarshalReadJournalResponse, if_neg Bool.false_ne_true, List.append_nil,
      decodeFields_single _ _ 0xa0 short]
    cases read : parseJournalEntries runtime list <;> simp [readJournalResponseField, read]

/-- The decoder of Data accepts the encoding of the value. -/
def Decodes (runtime : Runtime) (value : DataValue) : Prop :=
  ∃ wire found consumed, marshalData runtime value = .ok wire ∧
    unmarshalDataElement runtime wire 0 = .ok (found, consumed)

/-- An entry that the client finds something for. -/
structure JournalEntryWire.Readable (runtime : Runtime) (entry : JournalEntryWire) : Prop where
  named : entry.entryID ≠ []
  values : ∀ var ∈ entry.vars, Decodes runtime var.value

theorem exists_entryArrives_iff (entry : JournalEntryWire) :
    (∃ found, EntryArrives runtime entry found) ↔ entry.Readable runtime := by
  have vars : (∃ found, List.Forall₂ (VariableArrives runtime) entry.vars found) ↔
      ∀ var ∈ entry.vars, Decodes runtime var.value := by
    rw [exists_forall₂_iff]
    refine forall₂_congr fun var _ => ?_
    constructor
    · rintro ⟨found, -, wire, consumed, encoded, decoded⟩
      exact ⟨wire, found.value, consumed, encoded, decoded⟩
    · rintro ⟨wire, found, consumed, encoded, decoded⟩
      exact ⟨⟨var.tag, found⟩, rfl, wire, consumed, encoded, decoded⟩
  constructor
  · rintro ⟨found, arrives⟩
    exact ⟨arrives.named, vars.mp ⟨found.vars, arrives.vars⟩⟩
  · rintro ⟨named, values⟩
    obtain ⟨found, arrive⟩ := vars.mpr values
    exact ⟨⟨entry.entryID, entry.occurrenceTime.truncated, found⟩, named, rfl, rfl, arrive⟩

theorem marshalReadJournalResponse_iff {entries : List JournalEntryWire} {moreFollows : Bool}
    {payload : Octets} :
    marshalReadJournalResponse runtime quote entries moreFollows = .ok payload ↔
      ∃ list, encodeAll (marshalJournalEntry runtime quote) entries = .ok list ∧
        payload = encodeTLV 0xa0 list ++ if moreFollows then encodeTLV 0x81 [0xff] else [] := by
  unfold marshalReadJournalResponse
  split
  · next failed => simp [failed]
  · next list encoded => simp [encoded, eq_comm]

/-- A response of machine size is accepted exactly if its list is short enough for the decoder and
every entry can be read; then all of them are found. -/
theorem unmarshalReadJournalResponse_iff {entries : List JournalEntryWire} {moreFollows : Bool}
    {list payload : Octets}
    (encoded : encodeAll (marshalJournalEntry runtime quote) entries = .ok list)
    (marshalled : marshalReadJournalResponse runtime quote entries moreFollows = .ok payload)
    (few : entries.length ≤ maxJournalEntries) (machine : payload.length < 256 ^ 8)
    {found : List JournalEntryWire} {follows : Bool} :
    unmarshalReadJournalResponse runtime payload = .ok (found, follows) ↔
      list.length < maxContent ∧ List.Forall₂ (EntryArrives runtime) entries found ∧
        follows = moreFollows := by
  obtain ⟨_, same, rfl⟩ := marshalReadJournalResponse_iff.mp marshalled
  obtain rfl : list = _ := Except.ok.inj (encoded.symm.trans same)
  by_cases short : list.length < maxContent
  · have parsed := @parseJournalEntries_iff runtime quote entries found list encoded few short
    rw [unmarshalReadJournalResponse_encode short, ← parsed]
    split
    · next failed => simp [failed]
    rename_i others accepted
    rw [accepted]
    simp [short, eq_comm]
  · have inner := length_le_encodeTLV 0xa0 list
    rw [List.length_append] at machine
    obtain ⟨text, refused⟩ := decodeFields_long (fun _ => "pdu: read-journal response: ")
      (readJournalResponseField runtime) 0xa0 (Nat.not_lt.mp short) (by omega)
      (if moreFollows then encodeTLV 0x81 [0xff] else []) ([], false)
    rw [unmarshalReadJournalResponse, refused]
    simp [short]

/-- The Data codec gives the value back. -/
def RoundTrips (runtime : Runtime) (value : DataValue) : Prop :=
  ∃ wire consumed, marshalData runtime value = .ok wire ∧
    unmarshalDataElement runtime wire 0 = .ok (value, consumed)

/-- An entry that can be sent. -/
structure JournalEntryWire.Sendable (runtime : Runtime) (entry : JournalEntryWire) : Prop where
  named : entry.entryID ≠ []
  time : JournalTime entry.occurrenceTime
  values : ∀ var ∈ entry.vars, RoundTrips runtime var.value

/-- What arrives of an entry. -/
def JournalEntryWire.received (entry : JournalEntryWire) : JournalEntryWire :=
  { entry with occurrenceTime := entry.occurrenceTime.truncated }

theorem JournalEntryWire.Sendable.arrives (sendable : entry.Sendable runtime) :
    EntryArrives runtime entry entry.received where
  named := sendable.named
  entryID := rfl
  occurrenceTime := rfl
  vars := List.forall₂_same.mpr fun var member => ⟨rfl, sendable.values var member⟩

theorem JournalEntryWire.Sendable.encoded (sendable : entry.Sendable runtime) :
    ∃ part, marshalJournalEntry runtime quote entry = .ok part := by
  obtain ⟨occurrenceBin, made⟩ : ∃ octets,
      encodeBinaryTimeChecked runtime entry.occurrenceTime.unixMilli = .ok octets :=
    (encodeBinaryTimeChecked_ok_iff _).mpr sendable.time.binaryTimeRange
  obtain ⟨varBytes, vars⟩ : ∃ octets,
      encodeAll (marshalJournalVariable runtime quote) entry.vars = .ok octets := by
    refine encodeAll_of_each fun var member => ?_
    obtain ⟨wire, -, encoded, -⟩ := sendable.values var member
    exact ⟨_, by rw [marshalJournalVariable, encoded]⟩
  exact ⟨_, by rw [marshalJournalEntry, made, vars]⟩

/-- The decoders of the journal service invert the encoders on the other side, up to the fraction
of a millisecond in every instant. -/
theorem journalCodecs_agree (runtime : Runtime) (quote : Octets → String) (invokeID : UInt32) :
    (∀ domain journal, domain.length ≤ 1024 → journal ≠ [] → journal.length ≤ 1024 →
      (∀ start stop, JournalTime start → JournalTime stop →
        ∃ pdu, marshalReadJournalTimeRange runtime invokeID domain journal start stop = .ok pdu ∧
          ArrivesAs pdu invokeID tagNumReadJournal unmarshalReadJournalRequest
            { domain := domain, journal := journal, isTimeRange := true,
              startTime := start.truncated, stopTime := stop.truncated }) ∧
      ∀ afterTime afterID, JournalTime afterTime →
        ∃ pdu, marshalReadJournalStartAfter runtime invokeID domain journal afterTime afterID =
            .ok pdu ∧
          (Expressible pdu → ArrivesAs pdu invokeID tagNumReadJournal unmarshalReadJournalRequest
            { domain := domain, journal := journal, isStartAfter := true,
              afterTime := afterTime.truncated, afterID := afterID })) ∧
    ∀ entries moreFollows, entries.length ≤ 10000 → (∀ entry ∈ entries, entry.Sendable runtime) →
      ∃ list payload, encodeAll (marshalJournalEntry runtime quote) entries = .ok list ∧
        marshalReadJournalResponse runtime quote entries moreFollows = .ok payload ∧
        (list.length < 2 ^ 24 → unmarshalReadJournalResponse runtime payload =
          .ok (entries.map JournalEntryWire.received, moreFollows)) := by
  refine ⟨fun domain journal domainShort some journalShort =>
    ⟨fun start stop startInside stopInside => readJournalTimeRange_arrives invokeID some domainShort
      journalShort startInside stopInside, fun afterTime afterID inside => ?_⟩,
    fun entries moreFollows few sendable => ?_⟩
  · obtain ⟨payload, made, -, arrives⟩ := @readJournalStartAfter_payload runtime domain journal
      invokeID some domainShort journalShort afterTime inside afterID
    exact ⟨_, made, fun expressible => arrives (length_payload_lt (expressible _ rfl))⟩
  obtain ⟨list, encoded⟩ : ∃ octets,
      encodeAll (marshalJournalEntry runtime quote) entries = .ok octets :=
    encodeAll_of_each fun entry member => (sendable entry member).encoded
  refine ⟨list, _, encoded, by rw [marshalReadJournalResponse, encoded], fun short => ?_⟩
  have arrive : List.Forall₂ (EntryArrives runtime) entries
      (entries.map JournalEntryWire.received) :=
    List.forall₂_map_right_iff.mpr (List.forall₂_same.mpr fun entry member =>
      (sendable entry member).arrives)
  rw [unmarshalReadJournalResponse_encode short,
    (parseJournalEntries_iff encoded few short).mpr arrive]

/-- An entry with the identifier 1 and one variable `v`, 1.5 milliseconds after 2000-01-01. -/
def sampleEntry : JournalEntryWire where
  entryID := [0x01]
  occurrenceTime := .ofUnix 946684800 1500000
  vars := [⟨[0x76], .boolean true⟩]

theorem journalCodecs_agree_sampleEntry :
    (∃ pdu, marshalReadJournalTimeRange default 5 [0x64] [0x6a] (.ofUnix 946684800 1500000)
        (.ofUnix 946684801 0) = .ok pdu ∧
      ArrivesAs pdu 5 tagNumReadJournal unmarshalReadJournalRequest
        { domain := [0x64], journal := [0x6a], isTimeRange := true,
          startTime := .ofUnix 946684800 1000000, stopTime := .ofUnix 946684801 0 }) ∧
    ∃ payload, marshalReadJournalResponse default (fun _ => "") [sampleEntry] true = .ok payload ∧
      unmarshalReadJournalResponse default payload =
        .ok ([{ sampleEntry with occurrenceTime := .ofUnix 946684800 1000000 }], true) := by
  obtain ⟨requests, responses⟩ := journalCodecs_agree default (fun _ => "") 5
  refine ⟨(requests [0x64] [0x6a] (by decide) (by decide) (by decide)).1 _ _
    ⟨by decide, by decide⟩ ⟨by decide, by decide⟩, ?_⟩
  obtain ⟨list, payload, encoded, made, read⟩ := responses [sampleEntry] true (by decide) (by
    intro entry member
    obtain rfl := List.mem_singleton.mp member
    refine ⟨by decide, ⟨by decide, by decide⟩, fun var member => ?_⟩
    obtain rfl := List.mem_singleton.mp member
    exact ⟨_, _, rfl, rfl⟩)
  have short : list.length < 2 ^ 24 := by
    cases encoded
    decide
  exact ⟨payload, made, read short⟩

end Responses

end GoMms.Pdu
