import GoMms.Pdu.JournalRoundTrip
import GoMms.Server.File
import GoMms.Server.VariableAttributes

/-!
# The journal service of a server

`server_journal.go`: a ReadJournal request is answered from what a provider of journals returns,
shortened until the response fits the size negotiated for the connection. A response that goes out
can be read by the client exactly if its list is short enough for the decoder, its entries have
identifiers and the decoder of Data accepts their values (`readJournal_readable_iff`).
-/

namespace GoMms.Server

open Berutil Pdu Serverconn Mms Tracing

/-! ## Providers -/

structure JournalVariable where
  tag : Octets
  value : Value

structure JournalEntry where
  entryID : Octets
  occurrenceTime : Instant
  vars : List JournalVariable

structure JournalResult where
  entries : List JournalEntry
  moreFollows : Bool

/-- The methods of a `JournalProvider` that ReadJournal uses. -/
structure JournalProvider (State : Type) where
  readTimeRange : (domain journal : Octets) → (start stop : Instant) → (maxEntries : Int64) →
    State → Except ProviderError JournalResult × State
  readStartAfter : (domain journal afterID : Octets) → (afterTime : Instant) →
    (maxEntries : Int64) → State → Except ProviderError JournalResult × State

def journalError : ProviderError → HandlerResult
  | .notExist => errObjectNonExistent
  | .permission | .accessDenied => errAccessDenied
  | .other => .serviceError 7 0

def defaultMaxJournalEntries : Int64 := 100

def errResponseTooLarge : HandlerResult := .serviceError 3 0

/-- What the handler reads of the server and of the connection: its provider and the PDU size
negotiated. `quote` is `fmt`'s `%q`. -/
structure JournalService (State : Type) where
  provider : Option (JournalProvider State)
  runtime : Runtime
  quote : Octets → String
  maxPDU : Int64

/-! ## Conversion -/

section Wire

variable (runtime : Runtime) (quote : Octets → String)

def journalVariableToWire (index : Nat) (var : JournalVariable) :
    Except String JournalVariableWire :=
  match valueToDataValue runtime var.value with
  | .error text =>
    .error ("entry " ++ toString index ++ " variable " ++ quote var.tag ++ ": " ++ text)
  | .ok value => .ok ⟨var.tag, value⟩

def journalEntryToWire (index : Nat) (entry : JournalEntry) : Except String JournalEntryWire :=
  match entry.vars.mapM (journalVariableToWire runtime quote index) with
  | .error text => .error text
  | .ok vars => .ok ⟨entry.entryID, entry.occurrenceTime, vars⟩

def journalEntriesToWire (entries : List JournalEntry) : Except String (List JournalEntryWire) :=
  entries.zipIdx.mapM fun (entry, index) => journalEntryToWire runtime quote index entry

end Wire

section Conversion

variable {runtime : Runtime} {quote : Octets → String}

structure VariableToWire (runtime : Runtime) (var : JournalVariable) (wire : JournalVariableWire) :
    Prop where
  tag : wire.tag = var.tag
  value : valueToDataValue runtime var.value = .ok wire.value

structure EntryToWire (runtime : Runtime) (entry : JournalEntry) (wire : JournalEntryWire) :
    Prop where
  entryID : wire.entryID = entry.entryID
  occurrenceTime : wire.occurrenceTime = entry.occurrenceTime
  vars : List.Forall₂ (VariableToWire runtime) entry.vars wire.vars

theorem journalVariableToWire_iff {index : Nat} {var : JournalVariable}
    {wire : JournalVariableWire} :
    journalVariableToWire runtime quote index var = .ok wire ↔ VariableToWire runtime var wire := by
  unfold journalVariableToWire
  constructor
  · intro converted
    split at converted
    · cases converted
    rename_i value same
    cases converted
    exact ⟨rfl, same⟩
  · rintro ⟨tag, value⟩
    rw [value]
    exact congrArg Except.ok (by rw [← tag])

theorem journalEntryToWire_iff {index : Nat} {entry : JournalEntry} {wire : JournalEntryWire} :
    journalEntryToWire runtime quote index entry = .ok wire ↔ EntryToWire runtime entry wire := by
  have vars : ∀ found, entry.vars.mapM (journalVariableToWire runtime quote index) = .ok found ↔
      List.Forall₂ (VariableToWire runtime) entry.vars found := fun found => by
    simp only [mapM_eq_ok_iff, journalVariableToWire_iff]
  unfold journalEntryToWire
  constructor
  · intro converted
    split at converted
    · cases converted
    rename_i found same
    cases converted
    exact ⟨rfl, rfl, (vars found).mp same⟩
  · rintro ⟨entryID, occurrenceTime, below⟩
    rw [(vars wire.vars).mpr below]
    exact congrArg Except.ok (by rw [← entryID, ← occurrenceTime])

/-- The index of an entry appears only in error texts. -/
theorem journalEntriesToWire_iff {entries : List JournalEntry} {wire : List JournalEntryWire} :
    journalEntriesToWire runtime quote entries = .ok wire ↔
      List.Forall₂ (EntryToWire runtime) entries wire := by
  rw [journalEntriesToWire, mapM_eq_ok_iff]
  simp only [journalEntryToWire_iff]
  conv_rhs => rw [← List.zipIdx_map_fst 0 entries, List.forall₂_map_left_iff]

end Conversion

/-! ## Handler -/

variable {State : Type}

namespace JournalService

variable (service : JournalService State)

/-- The encoder that `handleReadJournal` hands to `fitList`; no text is `errResponseTooLarge`. -/
def encodeFirst (wireEntries : List JournalEntryWire) (moreFollows : Bool) (k : Nat)
    (truncated : Bool) : Except (Option String) Octets :=
  match marshalReadJournalResponse service.runtime service.quote (wireEntries.take k)
    (moreFollows || truncated) with
  | .error text => .error (some text)
  | .ok payload => .ok payload

/-- The part of `handleReadJournal` after the provider has returned. -/
def answerJournal (result : JournalResult) : HandlerResult :=
  match journalEntriesToWire service.runtime service.quote result.entries with
  | .error text => .failure ("marshal journal entries: " ++ text)
  | .ok wireEntries =>
    match fitList (responseBudget service.maxPDU)
      (service.encodeFirst wireEntries result.moreFollows) none wireEntries.length with
    | .error none => errResponseTooLarge
    | .error (some text) => .failure ("marshal read-journal response: " ++ text)
    | .ok payload => .response tagNumReadJournal true payload

/-- The call of the provider that a request asks for; a decoded request has one of the two
modes. -/
def readProvider (provider : JournalProvider State) (req : ReadJournalRequest) :
    State → Except ProviderError JournalResult × State :=
  if req.isTimeRange then
    provider.readTimeRange req.domain req.journal req.startTime req.stopTime
      defaultMaxJournalEntries
  else
    provider.readStartAfter req.domain req.journal req.afterID req.afterTime
      defaultMaxJournalEntries

def handleReadJournal (body : Octets) (state : State) : HandlerResult × State :=
  match service.provider with
  | none => (errServiceUnsupported, state)
  | some provider =>
    match unmarshalReadJournalRequest body with
    | .error _ => (errInvalidRequest, state)
    | .ok req =>
      if req.isTimeRange ∨ req.isStartAfter then
        match readProvider provider req state with
        | (.error error, state) => (journalError error, state)
        | (.ok result, state) => (service.answerJournal result, state)
      else (errInvalidRequest, state)

/-! ## What goes out -/

variable {service}

variable {payload : Octets}

theorem encodeFirst_ok {wireEntries : List JournalEntryWire} {moreFollows truncated : Bool}
    {k : Nat} (encoded : service.encodeFirst wireEntries moreFollows k truncated = .ok payload) :
    marshalReadJournalResponse service.runtime service.quote (wireEntries.take k)
      (moreFollows || truncated) = .ok payload := by
  unfold encodeFirst at encoded
  split at encoded
  · cases encoded
  rename_i marshalled
  cases encoded
  exact marshalled

/-- A response carries the first entries of the provider's result. -/
theorem answerJournal_response {result : JournalResult} {tag : Int64} {constructed : Bool}
    (answered : service.answerJournal result = .response tag constructed payload) :
    ∃ wireEntries sent moreFollows,
      journalEntriesToWire service.runtime service.quote result.entries = .ok wireEntries ∧
      sent <+: wireEntries ∧
      marshalReadJournalResponse service.runtime service.quote sent moreFollows = .ok payload ∧
      (payload.length : Int) ≤ (responseBudget service.maxPDU).toInt := by
  unfold answerJournal at answered
  split at answered
  · cases answered
  rename_i wireEntries converted
  split at answered
  · cases answered
  · cases answered
  rename_i fitted
  cases answered
  obtain ⟨fits, whole | ⟨k, -, -, part⟩⟩ := fitList_ok fitted
  · exact ⟨wireEntries, _, _, converted, List.take_prefix _ _, encodeFirst_ok whole, fits⟩
  · exact ⟨wireEntries, _, _, converted, List.take_prefix _ _, encodeFirst_ok part, fits⟩

/-- A request that is answered with a response was decoded and put to the provider. -/
theorem handleReadJournal_response {body : Octets} {state : State} {tag : Int64}
    {constructed : Bool}
    (answered : (service.handleReadJournal body state).1 = .response tag constructed payload) :
    ∃ provider req result next, service.provider = some provider ∧
      unmarshalReadJournalRequest body = .ok req ∧
      readProvider provider req state = (.ok result, next) ∧
      service.answerJournal result = .response tag constructed payload := by
  unfold handleReadJournal at answered
  split at answered
  · cases answered
  rename_i provider configured
  split at answered
  · cases answered
  rename_i req decoded
  split at answered
  · split at answered
    · next error next _ => cases error <;> cases answered
    rename_i result next returned
    exact ⟨provider, req, result, next, configured, decoded, returned, answered⟩
  · cases answered

end JournalService

/-- A refusal can be read off whatever becomes of the results. -/
private theorem eq_error_of_map_eq_error {Result : Type} {outcome : Except String Result}
    {text : String} (refused : outcome.map (fun _ => ()) = .error text) :
    outcome = .error text := by
  cases outcome with
  | error other =>
    cases refused
    rfl
  | ok found => cases refused

/-- A response that goes out is accepted, with all the entries in it, exactly if its list is short
enough for the decoder and every entry in it has an identifier and values that can be decoded. -/
theorem readJournal_readable_iff (service : JournalService State) (body : Octets) (state : State)
    (few : ∀ provider req result next, service.provider = some provider →
      JournalService.readProvider provider req state = (.ok result, next) →
        result.entries.length ≤ 100)
    {tag : Int64} {constructed : Bool} {payload : Octets}
    (answered : (service.handleReadJournal body state).1 = .response tag constructed payload) :
    ∃ provider req result next wireEntries sent moreFollows list,
      service.provider = some provider ∧ unmarshalReadJournalRequest body = .ok req ∧
      JournalService.readProvider provider req state = (.ok result, next) ∧
      journalEntriesToWire service.runtime service.quote result.entries = .ok wireEntries ∧
      sent <+: wireEntries ∧
      marshalReadJournalResponse service.runtime service.quote sent moreFollows = .ok payload ∧
      encodeAll (marshalJournalEntry service.runtime service.quote) sent = .ok list ∧
      ((∃ found follows, unmarshalReadJournalResponse service.runtime payload =
          .ok (found, follows) ∧ found.length = sent.length) ↔
        list.length < 2 ^ 24 ∧ ∀ entry ∈ sent, entry.Readable service.runtime) := by
  obtain ⟨provider, req, result, next, configured, decoded, returned, made⟩ :=
    JournalService.handleReadJournal_response answered
  obtain ⟨wireEntries, sent, moreFollows, converted, front, marshalled, fits⟩ :=
    JournalService.answerJournal_response made
  obtain ⟨list, encoded, -⟩ := marshalReadJournalResponse_iff.mp marshalled
  refine ⟨provider, req, result, next, wireEntries, sent, moreFollows, list, configured, decoded,
    returned, converted, front, marshalled, encoded, ?_⟩
  have count : sent.length ≤ maxJournalEntries := by
    have total := few provider req result next configured returned
    rw [(journalEntriesToWire_iff.mp converted).length_eq] at total
    have part := front.length_le
    unfold maxJournalEntries
    omega
  have machine : payload.length < 256 ^ 8 := by
    have budget := (responseBudget service.maxPDU).toInt_lt
    omega
  have accepted := fun found follows => @unmarshalReadJournalResponse_iff service.runtime
    service.quote sent moreFollows list payload encoded marshalled count machine found follows
  have each : (∃ found, List.Forall₂ (EntryArrives service.runtime) sent found) ↔
      ∀ entry ∈ sent, entry.Readable service.runtime := by
    rw [exists_forall₂_iff]
    exact forall₂_congr fun entry _ => exists_entryArrives_iff entry
  constructor
  · rintro ⟨found, follows, read, -⟩
    obtain ⟨short, arrive, -⟩ := (accepted found follows).mp read
    exact ⟨short, each.mp ⟨found, arrive⟩⟩
  · rintro ⟨short, readable⟩
    obtain ⟨found, arrive⟩ := each.mpr readable
    exact ⟨found, moreFollows, (accepted found moreFollows).mpr ⟨short, arrive, rfl⟩,
      arrive.length_eq.symm⟩

/-- A server whose journal holds one entry without variables, at 2000-01-01. -/
def oneEntryService (entryID : Octets) : JournalService Unit where
  provider := some
    { readTimeRange := fun _ _ _ _ _ state =>
        (.ok ⟨[⟨entryID, .ofUnix 946684800 0, []⟩], false⟩, state)
      readStartAfter := fun _ _ _ _ _ state =>
        (.ok ⟨[⟨entryID, .ofUnix 946684800 0, []⟩], false⟩, state) }
  runtime := default
  quote _ := ""
  maxPDU := 65000

/-- Start after the empty identifier at 1984-01-01 in the journal `j` of the domain `d`. -/
def startAfterBody : Octets :=
  [0xa0, 0x08, 0xa1, 0x06, 0x1a, 0x01, 0x64, 0x1a, 0x01, 0x6a,
    0xa5, 0x0a, 0x80, 0x06, 0x00, 0x00, 0x00, 0x00, 0x00, 0x00, 0x81, 0x00]

/-- A response with the one entry, under the identifier 1, is accepted. -/
theorem readJournal_readable_named :
    ∃ payload, ((oneEntryService [0x01]).handleReadJournal startAfterBody ()).1 =
        .response 65 true payload ∧
      ∃ found follows, unmarshalReadJournalResponse default payload = .ok (found, follows) ∧
        found.length = 1 := by
  have answered : ((oneEntryService [0x01]).handleReadJournal startAfterBody ()).1 =
      .response 65 true [0xa0, 0x17, 0x30, 0x15, 0x80, 0x01, 0x01, 0xa1, 0x02, 0x30, 0x00, 0xa2,
        0x0c, 0x80, 0x06, 0x00, 0x00, 0x00, 0x00, 0x16, 0xd4, 0xa2, 0x02, 0xa1, 0x00] := by
    decide +kernel
  have returns : ∀ provider req result next, (oneEntryService [0x01]).provider = some provider →
      JournalService.readProvider provider req () = (.ok result, next) →
        result.entries = [⟨[0x01], .ofUnix 946684800 0, []⟩] := by
    rintro provider req result next ⟨⟩ returned
    unfold JournalService.readProvider at returned
    split at returned <;> cases returned <;> rfl
  obtain ⟨provider, req, result, next, wireEntries, sent, moreFollows, list, configured, -,
    returned, converted, front, marshalled, encoded, accepted⟩ :=
    readJournal_readable_iff (oneEntryService [0x01]) startAfterBody ()
      (fun provider req result next configured returned => by
        rw [returns provider req result next configured returned]
        decide) answered
  rw [returns provider req result next configured returned] at converted
  cases converted
  obtain rfl | rfl : sent = [] ∨ sent = [⟨[0x01], .ofUnix 946684800 0, []⟩] := by
    rcases List.prefix_cons_iff.mp front with empty | ⟨rest, rfl, nothing⟩
    · exact .inl empty
    · rw [List.prefix_nil.mp nothing]
      exact .inr rfl
  · cases moreFollows <;> exact absurd marshalled (by decide +kernel)
  · refine ⟨_, answered, accepted.mpr ⟨?_, fun entry member => ?_⟩⟩
    · cases encoded
      decide +kernel
    · obtain rfl := List.mem_singleton.mp member
      exact ⟨by decide, nofun⟩

/-- An entry without an identifier is sent, and the client refuses the response. -/
theorem readJournal_unreadable :
    ∃ payload, ((oneEntryService []).handleReadJournal startAfterBody ()).1 =
        .response 65 true payload ∧
      unmarshalReadJournalResponse default payload =
        .error "pdu: journal entry: missing entryID" := by
  refine ⟨[0xa0, 0x16, 0x30, 0x14, 0x80, 0x00, 0xa1, 0x02, 0x30, 0x00, 0xa2, 0x0c, 0x80, 0x06,
    0x00, 0x00, 0x00, 0x00, 0x16, 0xd4, 0xa2, 0x02, 0xa1, 0x00], by decide +kernel, ?_⟩
  exact eq_error_of_map_eq_error (by decide +kernel)

end GoMms.Server
