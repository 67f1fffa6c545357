import GoMms.Berutil.Fields
import GoMms.Codec.Request
import GoMms.Pdu.Data
import GoMms.Pdu.ObjectName

/-!
# The journal service

`journal.go` of `internal/pdu`: the two forms of a ReadJournal request and the list of entries
that answers it, with the decoder of each on the other side. An entry is nested five records
deep, with a list of entries, a list of variables in each and a Data element in each of these.
-/

namespace GoMms.Pdu

open Octets Berutil Codec

def maxJournalEntries : Nat := 10000

structure JournalVariableWire where
  tag : Octets
  value : DataValue

structure JournalEntryWire where
  entryID : Octets := []
  occurrenceTime : Instant := .zero
  vars : List JournalVariableWire := []

structure ReadJournalRequest where
  domain : Octets := []
  journal : Octets := []
  isTimeRange : Bool := false
  startTime : Instant := .zero
  stopTime : Instant := .zero
  isStartAfter : Bool := false
  afterTime : Instant := .zero
  afterID : Octets := []
  deriving DecidableEq

def tagNumReadJournal : Int64 := 65

section Codec

variable (runtime : Runtime)

/-! ## Requests -/

def encodeJournalName (domain journal : Octets) : Except String Octets :=
  if journal = [] then .error "pdu: journal name: empty journal identifier"
  else
    match encodeObjectName { scope := scopeDomain, domainID := domain, itemID := journal } with
    | .error text => .error ("pdu: journal name: " ++ text)
    | .ok name => .ok (encodeTLV 0xa0 name)

def marshalReadJournalTimeRange (invokeID : UInt32) (domain journal : Octets)
    (start stop : Instant) : Except String Octets :=
  match encodeJournalName domain journal with
  | .error text => .error text
  | .ok nameBytes =>
    match encodeBinaryTimeChecked runtime start.unixMilli with
    | .error text => .error ("start time: " ++ text)
    | .ok startBin =>
      match encodeBinaryTimeChecked runtime stop.unixMilli with
      | .error text => .error ("stop time: " ++ text)
      | .ok stopBin =>
        .ok (marshalConfirmedRequest invokeID tagNumReadJournal true
          (nameBytes ++ encodeTLV 0xa1 (encodeTLV 0x80 startBin) ++
            encodeTLV 0xa2 (encodeTLV 0x80 stopBin)))

def marshalReadJournalStartAfter (invokeID : UInt32) (domain journal : Octets)
    (afterTime : Instant) (afterID : Octets) : Except String Octets :=
  match encodeJournalName domain journal with
  | .error text => .error text
  | .ok nameBytes =>
    match encodeBinaryTimeChecked runtime afterTime.unixMilli with
    | .error text => .error ("after time: " ++ text)
    | .ok afterBin =>
      .ok (marshalConfirmedRequest invokeID tagNumReadJournal true
        (nameBytes ++ encodeTLV 0xa5 (encodeTLV 0x80 afterBin ++ encodeTLV 0x81 afterID)))

/-- The instant of a TimeOfDay. -/
def decodeTimeOfDay (data : Octets) : Except String Instant :=
  match decodeBinaryTime data with
  | .error text => .error text
  | .ok ms => .ok (.ofUnixMilli ms.toInt)

/-- The first time value; what follows it is not looked at. -/
def decodeTimeField (data : Octets) : Except String Instant :=
  match findField "" 0x80 data with
  | .error text => .error text
  | .ok none => .error "missing time value"
  | .ok (some inner) => decodeTimeOfDay inner

/-- The state of `decodeStartAfter`. -/
structure StartAfterFields where
  req : ReadJournalRequest
  hasTime : Bool := false
  hasEntry : Bool := false

def startAfterField (state : StartAfterFields) (tag : UInt8) (inner : Octets) :
    Except String StartAfterFields :=
  if tag = 0x80 then
    match decodeTimeOfDay inner with
    | .error text => .error text
    | .ok time => .ok { state with req := { state.req with afterTime := time }, hasTime := true }
  else if tag = 0x81 then
    .ok { state with req := { state.req with afterID := inner }, hasEntry := true }
  else unexpectedTag tag "decodeStartAfter"

def decodeStartAfter (data : Octets) (req : ReadJournalRequest) :
    Except String ReadJournalRequest :=
  match decodeFields (fun _ => "") startAfterField data { req := req } with
  | .error text => .error text
  | .ok state =>
    if ¬state.hasTime then .error "missing timeSpecification"
    else if ¬state.hasEntry then .error "missing entrySpecification"
    else .ok state.req

def readJournalRequestField (req : ReadJournalRequest) (tag : UInt8) (inner : Octets) :
    Except String ReadJournalRequest :=
  if tag = 0xa0 then
    match decodeObjectName inner with
    | .error text => .error ("pdu: read-journal journalName: " ++ text)
    | .ok name => .ok { req with domain := name.domainID, journal := name.itemID }
  else if tag = 0xa1 then
    match decodeTimeField inner with
    | .error text => .error ("pdu: read-journal rangeStart: " ++ text)
    | .ok time => .ok { req with startTime := time, isTimeRange := true }
  else if tag = 0xa2 then
    match decodeTimeField inner with
    | .error text => .error ("pdu: read-journal rangeStop: " ++ text)
    | .ok time => .ok { req with stopTime := time }
  else if tag = 0xa5 then
    match decodeStartAfter inner req with
    | .error text => .error ("pdu: read-journal startAfter: " ++ text)
    | .ok req => .ok { req with isStartAfter := true }
  else unexpectedTag tag "UnmarshalReadJournalRequest"

/-- The checks after all fields are read: a name, and one of the two modes. -/
def checkReadJournalRequest (req : ReadJournalRequest) : Except String ReadJournalRequest :=
  if req.journal = [] then .error "pdu: read-journal request: missing journalName"
  else if req.isTimeRange ∧ req.isStartAfter then
    .error "pdu: read-journal request: both time-range and start-after present"
  else if req.isTimeRange then
    if req.startTime.isZero ∨ req.stopTime.isZero then
      .error "pdu: read-journal request: time-range requires both start and stop"
    else .ok req
  else if req.isStartAfter then .ok req
  else .error "pdu: read-journal request: missing range specification"

def unmarshalReadJournalRequest (data : Octets) : Except String ReadJournalRequest :=
  match decodeFields (fun _ => "pdu: read-journal request: ") readJournalRequestField data {} with
  | .error text => .error text
  | .ok req => checkReadJournalRequest req

/-! ## Responses -/

-- `quote` is `fmt`'s `%q`, which only appears in error texts
variable (quote : Octets → String)

def marshalJournalVariable (var : JournalVariableWire) : Except String Octets :=
  match marshalData runtime var.value with
  | .error text => .error ("pdu: journal variable " ++ quote var.tag ++ ": " ++ text)
  | .ok valueBytes =>
    .ok (encodeTLV 0x30 (encodeTLV 0x80 var.tag ++ encodeTLV 0xa1 valueBytes))

/-- `originatingApplication` with all of its optional fields omitted. -/
def emptyOriginatingApplication : Octets := [0xa1, 0x02, 0x30, 0x00]

def marshalJournalEntry (entry : JournalEntryWire) : Except String Octets :=
  match encodeBinaryTimeChecked runtime entry.occurrenceTime.unixMilli with
  | .error text => .error ("occurrence time: " ++ text)
  | .ok occurrenceBin =>
    match encodeAll (marshalJournalVariable runtime quote) entry.vars with
    | .error text => .error text
    | .ok varBytes =>
      .ok (encodeTLV 0x30 (encodeTLV 0x80 entry.entryID ++ emptyOriginatingApplication ++
        encodeTLV 0xa2 (encodeTLV 0x80 occurrenceBin ++ encodeTLV 0xa2 (encodeTLV 0xa1 varBytes))))

def marshalReadJournalResponse (entries : List JournalEntryWire) (moreFollows : Bool) :
    Except String Octets :=
  match encodeAll (marshalJournalEntry runtime quote) entries with
  | .error text => .error text
  | .ok entriesBytes =>
    .ok (encodeTLV 0xa0 entriesBytes ++ if moreFollows then encodeTLV 0x81 [0xff] else [])

/-- The state of `parseJournalVariable`. A field that was read stands for its `has` flag. -/
structure VariableFields where
  tag : Option Octets := none
  value : Option DataValue := none

def journalVariableField (state : VariableFields) (tag : UInt8) (inner : Octets) :
    Except String VariableFields :=
  if tag = 0x80 then .ok { state with tag := some inner }
  else if tag = 0xa1 then
    match unmarshalDataElement runtime inner 0 with
    | .error text => .error ("pdu: journal variable value: " ++ text)
    | .ok (value, _) => .ok { state with value := some value }
  else unexpectedTag tag "parseJournalVariable"

def parseJournalVariable (data : Octets) : Except String JournalVariableWire :=
  match decodeFields (fun _ => "pdu: journal variable field: ") (journalVariableField runtime) data
    {} with
  | .error text => .error text
  | .ok ⟨none, _⟩ => .error "pdu: journal variable: missing tag"
  | .ok ⟨some _, none⟩ => .error "pdu: journal variable: missing value"
  | .ok ⟨some tag, some value⟩ => .ok ⟨tag, value⟩

/-- One variable, after those already found. -/
def journalVariablesField (vars : List JournalVariableWire) (tag : UInt8) (inner : Octets) :
    Except String (List JournalVariableWire) :=
  if tag ≠ 0x30 then
    .error ("pdu: journal variable: expected SEQUENCE (0x30), got 0x" ++ hex02 tag)
  else
    match parseJournalVariable runtime inner with
    | .error text => .error text
    | .ok parsed => .ok (vars ++ [parsed])

def parseJournalVariables (data : Octets) : Except String (List JournalVariableWire) :=
  decodeFields (fun _ => "pdu: journal variable: ") (journalVariablesField runtime) data []

/-- The first list of variables; what follows it is not looked at. -/
def parseJournalData (data : Octets) : Except String (List JournalVariableWire) :=
  match findField "pdu: journal data: " 0xa1 data with
  | .error text => .error text
  | .ok none => .ok []
  | .ok (some inner) => parseJournalVariables runtime inner

/-- The state of `parseEntryContent`. -/
structure ContentFields where
  entry : JournalEntryWire
  hasTime : Bool := false
  hasData : Bool := false

def entryContentField (state : ContentFields) (tag : UInt8) (inner : Octets) :
    Except String ContentFields :=
  if tag = 0x80 then
    match decodeTimeOfDay inner with
    | .error text => .error ("pdu: journal occurrenceTime: " ++ text)
    | .ok time =>
      .ok { state with entry := { state.entry with occurrenceTime := time }, hasTime := true }
  else if tag = 0xa2 then
    match parseJournalData runtime inner with
    | .error text => .error text
    | .ok vars => .ok { state with entry := { state.entry with vars := vars }, hasData := true }
  else unexpectedTag tag "parseEntryContent"

def parseEntryContent (data : Octets) (entry : JournalEntryWire) : Except String JournalEntryWire :=
  match decodeFields (fun _ => "pdu: entry content: ") (entryContentField runtime) data
    { entry := entry } with
  | .error text => .error text
  | .ok state =>
    if ¬state.hasTime then .error "pdu: journal entry: missing occurrenceTime"
    else if ¬state.hasData then .error "pdu: journal entry: missing data block"
    else .ok state.entry

def journalEntryField (entry : JournalEntryWire) (tag : UInt8) (inner : Octets) :
    Except String JournalEntryWire :=
  if tag = 0x80 then .ok { entry with entryID := inner }
  else if tag = 0xa1 then .ok entry
  else if tag = 0xa2 then parseEntryContent runtime inner entry
  else unexpectedTag tag "parseJournalEntry"

def parseJournalEntry (data : Octets) : Except String JournalEntryWire :=
  match decodeFields (fun _ => "pdu: journal entry field: ") (journalEntryField runtime)
      data {} with
  | .error text => .error text
  | .ok entry =>
    if entry.entryID = [] then .error "pdu: journal entry: missing entryID" else .ok entry

/-- One entry, after those already found. -/
def journalEntriesField (entries : List JournalEntryWire) (tag : UInt8) (inner : Octets) :
    Except String (List JournalEntryWire) :=
  if tag ≠ 0x30 then
    .error ("pdu: journal entry: expected SEQUENCE (0x30), got 0x" ++ hex02 tag)
  else
    match parseJournalEntry runtime inner with
    | .error text => .error text
    | .ok entry =>
      if (entries ++ [entry]).length > maxJournalEntries then
        .error ("pdu: journal entries " ++ toString (entries ++ [entry]).length ++
          " exceeds maximum " ++ toString maxJournalEntries)
      else .ok (entries ++ [entry])

def parseJournalEntries (data : Octets) : Except String (List JournalEntryWire) :=
  decodeFields (fun _ => "pdu: journal entry: ") (journalEntriesField runtime) data []

def readJournalResponseField (state : List JournalEntryWire × Bool) (tag : UInt8)
    (inner : Octets) : Except String (List JournalEntryWire × Bool) :=
  if tag = 0xa0 then
    match parseJournalEntries runtime inner with
    | .error text => .error text
    | .ok entries => .ok (entries, state.2)
  else if tag = 0x81 then
    match inner with
    | [] => .ok state
    | octet :: _ => .ok (state.1, octet != 0)
  else unexpectedTag tag "UnmarshalReadJournalResponse"

/-- The entries and whether more follow. -/
def unmarshalReadJournalResponse (data : Octets) : Except String (List JournalEntryWire × Bool) :=
  decodeFields (fun _ => "pdu: read-journal response: ") (readJournalResponseField runtime) data
    ([], false)

end Codec

end GoMms.Pdu
