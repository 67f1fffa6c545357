import Mathlib.Data.Prod.Lex
import GoMms.Server.Journal

/-!
# Reading a journal page by page

A client reads a journal with `ReadJournalStartAfter`, each time from the last entry it has. The
entries are ordered by time and identifier, and the server cuts its pages twice: the provider after
100 entries, the handler where the response gets too large. Times lose the fraction of their
millisecond on the way, in responses as in requests, so the cursor is a rounded one: what is read is
the journal, entry by entry, exactly if every page but the last ends at a whole millisecond
(`journalPaging_exact_iff`).
-/

namespace GoMms.Mms

open Berutil Codec Pdu Server Serverconn PageWalk Sorted Tracing

variable {State : Type}

/-! ## The client -/

/-- What reading a page can fail with: the arguments cannot be encoded, the request does not reach
the handler, the server answers with an error, or the response cannot be decoded. -/
inductive JournalError where
  | invalidArg (text : String)
  | undelivered
  | refused (result : HandlerResult)
  | decode (text : String)
  deriving DecidableEq, Repr

section Client

variable (quote : Octets → String)

def journalVariableFromWire (index : Nat) (wire : JournalVariableWire) :
    Except String JournalVariable :=
  match dataValueToValue wire.value with
  | .error text =>
    .error ("journal entry " ++ toString index ++ " variable " ++ quote wire.tag ++ ": " ++ text)
  | .ok value => .ok ⟨wire.tag, value⟩

def journalEntryFromWire (index : Nat) (wire : JournalEntryWire) : Except String JournalEntry :=
  match wire.vars.mapM (journalVariableFromWire quote index) with
  | .error text => .error text
  | .ok vars => .ok ⟨wire.entryID, wire.occurrenceTime, vars⟩

def journalEntriesFromWire (wire : List JournalEntryWire) : Except String (List JournalEntry) :=
  wire.zipIdx.mapM fun (entry, index) => journalEntryFromWire quote index entry

/-- What `sendJournalRequest` makes of the payload of a response. -/
def decodeJournal (runtime : Runtime) (payload : Octets) : Except String JournalResult :=
  match unmarshalReadJournalResponse runtime payload with
  | .error text => .error ("mms: " ++ text)
  | .ok (wire, moreFollows) =>
    match journalEntriesFromWire quote wire with
    | .error text => .error ("mms: " ++ text)
    | .ok entries => .ok ⟨entries, moreFollows⟩

variable {quote}

structure VariableFromWire (wire : JournalVariableWire) (var : JournalVariable) : Prop where
  tag : var.tag = wire.tag
  value : dataValueToValue wire.value = .ok var.value

structure EntryFromWire (wire : JournalEntryWire) (entry : JournalEntry) : Prop where
  entryID : entry.entryID = wire.entryID
  occurrenceTime : entry.occurrenceTime = wire.occurrenceTime
  vars : List.Forall₂ VariableFromWire wire.vars entry.vars

theorem journalVariableFromWire_of {wire : JournalVariableWire} {var : JournalVariable}
    (reads : VariableFromWire wire var) (index : Nat) :
    journalVariableFromWire quote index wire = .ok var := by
  rw [journalVariableFromWire, reads.value]
  exact congrArg Except.ok (by rw [← reads.tag])

theorem journalEntryFromWire_of {wire : JournalEntryWire} {entry : JournalEntry}
    (reads : EntryFromWire wire entry) (index : Nat) :
    journalEntryFromWire quote index wire = .ok entry := by
  have vars : wire.vars.mapM (journalVariableFromWire quote index) = .ok entry.vars :=
    mapM_eq_ok_iff.mpr (reads.vars.imp fun _ _ each => journalVariableFromWire_of each index)
  rw [journalEntryFromWire, vars]
  exact congrArg Except.ok (by rw [← reads.entryID, ← reads.occurrenceTime])

theorem journalEntriesFromWire_of {wire : List JournalEntryWire} {entries : List JournalEntry}
    (reads : List.Forall₂ EntryFromWire wire entries) :
    journalEntriesFromWire quote wire = .ok entries := by
  rw [← List.zipIdx_map_fst 0 wire, List.forall₂_map_left_iff] at reads
  exact mapM_eq_ok_iff.mpr (reads.imp fun _ _ each => journalEntryFromWire_of each _)

end Client

/-- The service body that a server takes out of a request. -/
def requestBody (pdu : Octets) : Option Octets :=
  match decodePdu pdu with
  | .ok (.confirmedRequest, content) =>
    match unmarshalConfirmedRequest content with
    | .ok (_, serviceRaw) => some serviceRaw.bytes
    | .error _ => none
  | _ => none

theorem requestBody_of_delivers {pdu body : Octets} {invokeID : UInt32} {tag : Nat}
    (delivers : Delivers pdu invokeID tag body) : requestBody pdu = some body := by
  obtain ⟨content, raw, decoded, envelope, -, rfl⟩ := delivers
  simp only [requestBody, decoded, envelope]

section Paging

variable (service : JournalService State)

/-- `ReadJournalStartAfter` against the handler of a server. -/
def readJournalStartAfter (invokeID : UInt32) (domain journal : Octets) (afterTime : Instant)
    (afterID : Octets) (state : State) : Except JournalError JournalResult × State :=
  match marshalReadJournalStartAfter service.runtime invokeID domain journal afterTime afterID with
  | .error text => (.error (.invalidArg ("mms: marshal read-journal request: " ++ text)), state)
  | .ok pdu =>
    match requestBody pdu with
    | none => (.error .undelivered, state)
    | some body =>
      match service.handleReadJournal body state with
      | (.response _ _ payload, state) =>
        match decodeJournal service.quote service.runtime payload with
        | .error text => (.error (.decode text), state)
        | .ok result => (.ok result, state)
      | (result, state) => (.error (.refused result), state)

/-- The entries received so far, and those among them at which a page ended that more follow. -/
structure JournalPages where
  received : List JournalEntry := []
  ends : List JournalEntry := []

/-- Read page after page, each from the last entry received, until nothing follows; `none` while
`fuel` requests do not suffice. The tracker issues the invoke IDs. -/
def readJournalPages (invokeIDs : Nat → UInt32) (domain journal : Octets) :
    (fuel round : Nat) → (afterTime : Instant) → (afterID : Octets) → JournalPages → State →
      Option (Except JournalError JournalPages × State)
  | 0, _, _, _, _, _ => none
  | fuel + 1, round, afterTime, afterID, pages, state =>
    match readJournalStartAfter service (invokeIDs round) domain journal afterTime afterID
      state with
    | (.error error, state) => some (.error error, state)
    | (.ok result, state) =>
      let pages := { pages with received := pages.received ++ result.entries }
      if !result.moreFollows then some (.ok pages, state)
      else
        match result.entries.getLast? with
        | none => some (.ok pages, state)
        | some last =>
          readJournalPages invokeIDs domain journal fuel (round + 1) last.occurrenceTime
            last.entryID { pages with ends := pages.ends ++ [last] } state

end Paging

/-! ## One response -/

/-- An entry on its way: as the handler converts it, as the decoder finds it and as the client
converts it back. -/
structure Delivered (runtime : Runtime) (entry : JournalEntry)
    (item : JournalEntryWire × JournalEntryWire × JournalEntry) : Prop where
  toWire : EntryToWire runtime entry item.1
  arrives : EntryArrives runtime item.1 item.2.1
  fromWire : EntryFromWire item.2.1 item.2.2

/-- What a client gets for an entry. -/
def Received (runtime : Runtime) (entry got : JournalEntry) : Prop :=
  ∃ wire found, Delivered runtime entry (wire, found, got)

theorem Received.entryID {runtime : Runtime} {entry got : JournalEntry}
    (received : Received runtime entry got) : got.entryID = entry.entryID := by
  obtain ⟨wire, found, toWire, arrives, fromWire⟩ := received
  rw [fromWire.entryID, arrives.entryID, toWire.entryID]

theorem Received.occurrenceTime {runtime : Runtime} {entry got : JournalEntry}
    (received : Received runtime entry got) :
    got.occurrenceTime = entry.occurrenceTime.truncated := by
  obtain ⟨wire, found, toWire, arrives, fromWire⟩ := received
  rw [fromWire.occurrenceTime, arrives.occurrenceTime, toWire.occurrenceTime]

/-- A response with this entry alone fits, also with the flag that more follow. -/
def SingleFits (service : JournalService State) (wire : JournalEntryWire) : Prop :=
  ∃ payload, marshalReadJournalResponse service.runtime service.quote [wire] true = .ok payload ∧
    (payload.length : Int) ≤ (responseBudget service.maxPDU).toInt

section Response

variable {service : JournalService State} {wireEntries : List JournalEntryWire}

/-- The flag only adds to the length. -/
theorem length_marshalReadJournalResponse_le {moreFollows : Bool} {payload flagged : Octets}
    (marshalled : marshalReadJournalResponse service.runtime service.quote wireEntries moreFollows =
      .ok payload)
    (whole : marshalReadJournalResponse service.runtime service.quote wireEntries true =
      .ok flagged) : payload.length ≤ flagged.length := by
  obtain ⟨list, encoded, rfl⟩ := marshalReadJournalResponse_iff.mp marshalled
  obtain ⟨same, again, rfl⟩ := marshalReadJournalResponse_iff.mp whole
  obtain rfl := Except.ok.inj (encoded.symm.trans again)
  cases moreFollows <;> simp

theorem SingleFits.length_entryID_le {wire : JournalEntryWire} (fits : SingleFits service wire) :
    (wire.entryID.length : Int) ≤ (responseBudget service.maxPDU).toInt := by
  obtain ⟨payload, marshalled, small⟩ := fits
  obtain ⟨list, encoded, rfl⟩ := marshalReadJournalResponse_iff.mp marshalled
  rw [encodeAll] at encoded
  split at encoded
  · cases encoded
  rename_i part made
  cases encoded
  rw [marshalJournalEntry] at made
  split at made
  · cases made
  split at made
  · cases made
  cases made
  simp only [List.length_append, length_encodeTLV, tlvSize] at small
  omega

/-- Entries that fit alone can be encoded together. -/
theorem encodeFirst_of_fits (fit : ∀ wire ∈ wireEntries, SingleFits service wire)
    (moreFollows : Bool) (k : Nat) (truncated : Bool) :
    ∃ payload, service.encodeFirst wireEntries moreFollows k truncated = .ok payload := by
  have each : ∀ wire ∈ wireEntries.take k,
      ∃ part, marshalJournalEntry service.runtime service.quote wire = .ok part := by
    intro wire member
    obtain ⟨payload, marshalled, -⟩ := fit wire (List.mem_of_mem_take member)
    obtain ⟨list, encoded, -⟩ := marshalReadJournalResponse_iff.mp marshalled
    rw [encodeAll] at encoded
    split at encoded
    · cases encoded
    · next part made => exact ⟨part, made⟩
  obtain ⟨list, encoded⟩ := encodeAll_of_each each
  rw [JournalService.encodeFirst, marshalReadJournalResponse_iff.mpr ⟨list, encoded, rfl⟩]
  exact ⟨_, rfl⟩

/-- `fitList` finds a part of entries that fit alone. -/
theorem fitList_of_fits (usable : 5 ≤ (responseBudget service.maxPDU).toInt)
    (fit : ∀ wire ∈ wireEntries, SingleFits service wire) (moreFollows : Bool) :
    ∃ payload, fitList (responseBudget service.maxPDU)
      (service.encodeFirst wireEntries moreFollows) none wireEntries.length = .ok payload := by
  refine fitList_finds (fun k truncated _ => encodeFirst_of_fits fit moreFollows k truncated)
    (fun few full encoded => ?_) fun long single encoded => ?_
  · have marshalled := JournalService.encodeFirst_ok encoded
    rw [List.take_length] at marshalled
    match wireEntries, few with
    | [], _ =>
      obtain ⟨list, ⟨⟩, rfl⟩ := marshalReadJournalResponse_iff.mp marshalled
      have small : (encodeTLV 0xa0 [] ++
          if moreFollows || false then encodeTLV 0x81 [0xff] else []).length ≤ 5 := by
        cases moreFollows <;> decide
      exact (Int.ofNat_le.mpr small).trans usable
    | [wire], _ =>
      obtain ⟨payload, whole, fits⟩ := fit wire List.mem_cons_self
      have shorter := length_marshalReadJournalResponse_le marshalled whole
      omega
  · have marshalled := JournalService.encodeFirst_ok encoded
    rw [Bool.or_true] at marshalled
    match wireEntries, long with
    | wire :: _ :: _, _ =>
      obtain ⟨payload, whole, fits⟩ := fit wire List.mem_cons_self
      obtain rfl := Except.ok.inj (marshalled.symm.trans whole)
      exact fits

/-- The client gets the first entries of what the provider returned, and is told that more follow
if the provider said so or not all of them fitted. -/
theorem answerJournal_delivered (usable : 5 ≤ (responseBudget service.maxPDU).toInt)
    (moderate : (responseBudget service.maxPDU).toInt < maxContent) {page : List JournalEntry}
    {items : List (JournalEntryWire × JournalEntryWire × JournalEntry)}
    (delivered : List.Forall₂ (Delivered service.runtime) page items)
    (few : page.length ≤ maxJournalEntries)
    (fit : ∀ item ∈ items, SingleFits service item.1) (moreFollows : Bool) :
    ∃ payload k follows,
      service.answerJournal ⟨page, moreFollows⟩ = .response tagNumReadJournal true payload ∧
      decodeJournal service.quote service.runtime payload =
        .ok ⟨(items.take k).map (·.2.2), follows⟩ ∧
      (k = page.length ∧ follows = moreFollows ∨ 1 ≤ k ∧ k < page.length ∧ follows = true) := by
  have converted : journalEntriesToWire service.runtime service.quote page =
      .ok (items.map Prod.fst) := by
    rw [journalEntriesToWire_iff, List.forall₂_map_right_iff]
    exact delivered.imp fun _ _ each => each.toWire
  have fitEach : ∀ wire ∈ items.map Prod.fst, SingleFits service wire := fun wire member => by
    obtain ⟨item, among, rfl⟩ := List.mem_map.mp member
    exact fit item among
  obtain ⟨payload, fitted⟩ := fitList_of_fits usable fitEach moreFollows
  have answered : service.answerJournal ⟨page, moreFollows⟩ =
      .response tagNumReadJournal true payload := by
    simp only [JournalService.answerJournal, converted, fitted]
  have lengths := delivered.length_eq
  obtain ⟨fits, chosen⟩ := fitList_ok fitted
  obtain ⟨k, follows, marshalled, choice⟩ : ∃ k follows,
      marshalReadJournalResponse service.runtime service.quote ((items.map Prod.fst).take k)
        follows = .ok payload ∧
      (k = page.length ∧ follows = moreFollows ∨ 1 ≤ k ∧ k < page.length ∧ follows = true) := by
    rcases chosen with whole | ⟨k, positive, below, part⟩
    · refine ⟨_, _, JournalService.encodeFirst_ok whole, .inl ⟨?_, Bool.or_false _⟩⟩
      rw [List.length_map, lengths]
    · refine ⟨k, _, JournalService.encodeFirst_ok part, .inr ⟨positive, ?_, Bool.or_true _⟩⟩
      rwa [List.length_map, ← lengths] at below
  refine ⟨payload, k, follows, answered, ?_, choice⟩
  have each : ∀ item ∈ items.take k, ∃ entry ∈ page, Delivered service.runtime entry item :=
    fun item member => exists_of_forall₂_right delivered (List.mem_of_mem_take member)
  obtain ⟨list, encoded, shape⟩ := marshalReadJournalResponse_iff.mp marshalled
  have inner := length_le_encodeTLV 0xa0 list
  have outer : (encodeTLV 0xa0 list).length ≤ payload.length := by
    rw [shape, List.length_append]
    omega
  have read : unmarshalReadJournalResponse service.runtime payload =
      .ok ((items.take k).map (·.2.1), follows) := by
    refine (unmarshalReadJournalResponse_iff encoded marshalled ?_ ?_).mpr ⟨?_, ?_, rfl⟩
    · rw [List.length_take, List.length_map]
      omega
    · unfold maxContent at moderate
      omega
    · omega
    · rw [← List.map_take, List.forall₂_map_left_iff, List.forall₂_map_right_iff, List.forall₂_same]
      intro item member
      obtain ⟨entry, -, made⟩ := each item member
      exact made.arrives
  have back : journalEntriesFromWire service.quote ((items.take k).map (·.2.1)) =
      .ok ((items.take k).map (·.2.2)) := by
    apply journalEntriesFromWire_of
    rw [List.forall₂_map_left_iff, List.forall₂_map_right_iff, List.forall₂_same]
    intro item member
    obtain ⟨entry, -, made⟩ := each item member
    exact made.fromWire
  simp only [decodeJournal, read, back]

end Response

/-! ## The order of a journal -/

/-- Time and identifier, in this order. -/
abbrev JournalKey := Int ×ₗ Nat ×ₗ Octets

def cursorKey (time : Instant) (entryID : Octets) : JournalKey :=
  toLex (time.unix, toLex (time.nanosecond, entryID))

def journalKey (entry : JournalEntry) : JournalKey :=
  cursorKey entry.occurrenceTime entry.entryID

/-- The key without the fraction of its millisecond. -/
def roundKey (key : JournalKey) : JournalKey :=
  toLex ((ofLex key).1,
    toLex ((ofLex (ofLex key).2).1 / 1000000 * 1000000, (ofLex (ofLex key).2).2))

theorem roundKey_le (key : JournalKey) : roundKey key ≤ key := by
  have fraction : (ofLex (ofLex key).2).1 / 1000000 * 1000000 ≤ (ofLex (ofLex key).2).1 :=
    Nat.div_mul_le_self _ _
  refine Prod.Lex.le_iff.mpr (.inr ⟨rfl, Prod.Lex.le_iff.mpr ?_⟩)
  rcases fraction.lt_or_eq with below | same
  · exact .inl below
  · exact .inr ⟨same, le_rfl⟩

theorem cursorKey_truncated {time : Instant} (inside : JournalTime time) (entryID : Octets) :
    cursorKey time.truncated entryID = roundKey (cursorKey time entryID) := by
  rw [cursorKey, inside.unix_truncated, inside.nanosecond_truncated]
  rfl

/-- The times of whole milliseconds are those that arrive as they are. -/
theorem roundKey_eq_iff {time : Instant} (inside : JournalTime time) (entryID : Octets) :
    roundKey (cursorKey time entryID) = cursorKey time entryID ↔ time.truncated = time := by
  rw [← cursorKey_truncated inside]
  constructor
  · intro same
    have parts := Prod.ext_iff.mp (toLex.injective same)
    have fraction := Prod.ext_iff.mp (toLex.injective parts.2)
    exact Instant.ext parts.1 fraction.1
  · intro same
    rw [same]

/-- The entries behind a cursor. -/
def laterEntries (afterTime : Instant) (afterID : Octets) (entries : List JournalEntry) :
    List JournalEntry :=
  entries.filter fun entry => cursorKey afterTime afterID < journalKey entry

theorem map_laterEntries (afterTime : Instant) (afterID : Octets) (entries : List JournalEntry) :
    (laterEntries afterTime afterID entries).map journalKey =
      behind (cursorKey afterTime afterID) (entries.map journalKey) := by
  rw [laterEntries, behind, List.filter_map]
  rfl

/-- What is assumed of a journal and of the server that has it: the provider returns the next at
most 100 entries behind the cursor and says whether there are more; the entries have distinct
identifiers, times that can be encoded and values that reach the client, and are sorted; each of
them fits into a response alone. -/
structure PagedJournal (service : JournalService State) (domain journal : Octets)
    (entries : List JournalEntry) : Prop where
  provided : ∃ provider, service.provider = some provider ∧ ∀ afterID afterTime state, ∃ next,
    provider.readStartAfter domain journal afterID afterTime defaultMaxJournalEntries state =
      (.ok ⟨(laterEntries afterTime afterID entries).take 100,
        decide (100 < (laterEntries afterTime afterID entries).length)⟩, next)
  domainShort : domain.length ≤ 1024
  journalNamed : journal ≠ []
  journalShort : journal.length ≤ 1024
  usable : 5 ≤ (responseBudget service.maxPDU).toInt
  moderate : (responseBudget service.maxPDU).toInt + 4096 ≤ maxContent
  distinct : (entries.map (·.entryID)).Nodup
  times : ∀ entry ∈ entries, JournalTime entry.occurrenceTime
  sorted : Ascending (entries.map journalKey)
  delivered : ∀ entry ∈ entries, ∃ item, Delivered service.runtime entry item ∧
    SingleFits service item.1

/-- A cursor that a request can carry. -/
structure Cursor (afterTime : Instant) (afterID : Octets) : Prop where
  time : JournalTime afterTime
  short : afterID.length + 4096 ≤ maxContent

section Pages

variable {service : JournalService State} {domain journal : Octets} {entries : List JournalEntry}
  (paged : PagedJournal service domain journal entries)

/-- The provider's page. -/
theorem isPage_laterEntries (time : Instant) (id : Octets) :
    IsPage (entries.map journalKey) (cursorKey time id)
      (((laterEntries time id entries).take 100).map journalKey)
      (decide (100 < (laterEntries time id entries).length)) where
  front := by
    rw [← map_laterEntries]
    exact (List.take_prefix _ _).map _
  whole last := by
    rw [← map_laterEntries, List.take_of_length_le (by simpa using last)]
  advances more := by
    have long := of_decide_eq_true more
    refine List.ne_nil_of_length_pos ?_
    rw [List.length_map, List.length_take]
    omega

variable {afterTime : Instant} {afterID : Octets}

include paged in
/-- The request for a page reaches the provider with the time cut to milliseconds. -/
theorem handleReadJournal_startAfter (cursor : Cursor afterTime afterID) (invokeID : UInt32)
    (state : State) :
    ∃ pdu body next,
      marshalReadJournalStartAfter service.runtime invokeID domain journal afterTime afterID =
        .ok pdu ∧
      requestBody pdu = some body ∧
      service.handleReadJournal body state =
        (service.answerJournal ⟨(laterEntries afterTime.truncated afterID entries).take 100,
          decide (100 < (laterEntries afterTime.truncated afterID entries).length)⟩, next) := by
  obtain ⟨provider, configured, answers⟩ := paged.provided
  obtain ⟨payload, made, bound, arrives⟩ := @readJournalStartAfter_payload service.runtime domain
    journal invokeID paged.journalNamed paged.domainShort paged.journalShort afterTime cursor.time
    afterID
  have short := cursor.short
  have small := bound (by omega)
  obtain ⟨body, delivers, decoded⟩ := arrives (by omega)
  obtain ⟨next, returned⟩ := answers afterID afterTime.truncated state
  refine ⟨_, body, next, made, requestBody_of_delivers delivers, ?_⟩
  simp only [JournalService.handleReadJournal, configured, decoded, JournalService.readProvider,
    Bool.false_eq_true, false_or, if_true, if_false, returned]

include paged in
/-- The client gets a page of the journal. -/
theorem readJournalStartAfter_page (cursor : Cursor afterTime afterID) (invokeID : UInt32)
    (state : State) :
    ∃ page got follows next,
      readJournalStartAfter service invokeID domain journal afterTime afterID state =
        (.ok ⟨got, follows⟩, next) ∧
      (∀ entry ∈ page, entry ∈ entries) ∧ List.Forall₂ (Received service.runtime) page got ∧
      IsPage (entries.map journalKey) (cursorKey afterTime.truncated afterID)
        (page.map journalKey) follows := by
  obtain ⟨pdu, body, next, made, delivered, handled⟩ :=
    handleReadJournal_startAfter paged cursor invokeID state
  have isPage := @isPage_laterEntries entries afterTime.truncated afterID
  generalize returned : (laterEntries afterTime.truncated afterID entries).take 100 = page at *
  generalize decide (100 < (laterEntries afterTime.truncated afterID entries).length) = more at *
  have known : ∀ entry ∈ page, entry ∈ entries := fun entry member => by
    rw [← returned] at member
    exact List.mem_of_mem_filter (List.mem_of_mem_take member)
  have few : page.length ≤ 100 := by
    rw [← returned, List.length_take]
    exact min_le_left _ _
  obtain ⟨items, each⟩ := exists_forall₂_iff.mpr fun entry member =>
    paged.delivered entry (known entry member)
  have moderate := paged.moderate
  obtain ⟨payload, k, follows, answered, decoded, choice⟩ := answerJournal_delivered paged.usable
    (by omega) (each.imp fun _ _ both => both.1) (few.trans (by decide)) (fun item member => by
      obtain ⟨entry, -, both⟩ := exists_of_forall₂_right each member
      exact both.2) more
  refine ⟨page.take k, (items.take k).map (·.2.2), follows, next, ?_,
    fun entry member => known entry (List.mem_of_mem_take member), ?_, ?_⟩
  · simp only [readJournalStartAfter, made, delivered, handled, answered, decoded]
  · rw [List.forall₂_map_right_iff]
    exact (List.forall₂_take k each).imp fun _ item both => ⟨item.1, item.2.1, both.1⟩
  · rcases choice with ⟨rfl, rfl⟩ | ⟨positive, shorter, rfl⟩
    · rwa [List.take_length]
    · rw [List.map_take]
      exact isPage.truncate positive (by rwa [List.length_map])

theorem truncated_truncated {time : Instant} (inside : JournalTime time) :
    time.truncated.truncated = time.truncated := by
  have again : JournalTime time.truncated := by
    unfold JournalTime
    rw [inside.unix_truncated]
    exact inside
  refine Instant.ext again.unix_truncated ?_
  rw [again.nanosecond_truncated, inside.nanosecond_truncated]
  omega

include paged in
/-- The last entry of a page is a cursor for the next request, which rounds its key. -/
theorem cursor_of_received {entry last : JournalEntry} (member : entry ∈ entries)
    (received : Received service.runtime entry last) :
    Cursor last.occurrenceTime last.entryID ∧
      cursorKey last.occurrenceTime.truncated last.entryID = roundKey (journalKey entry) := by
  have inside := paged.times entry member
  rw [received.occurrenceTime, received.entryID]
  refine ⟨⟨?_, ?_⟩, ?_⟩
  · unfold JournalTime
    rw [inside.unix_truncated]
    exact inside
  · obtain ⟨item, made, fits⟩ := paged.delivered entry member
    have few := fits.length_entryID_le
    have moderate := paged.moderate
    rw [made.toWire.entryID] at few
    omega
  · rw [truncated_truncated inside, cursorKey_truncated inside]
    rfl

include paged in
/-- Whenever the loop stops, it has walked through the journal with rounded cursors. -/
theorem readJournalPages_walk {invokeIDs : Nat → UInt32} {fuel round : Nat} {pages : JournalPages}
    {state next : State} {outcome : Except JournalError JournalPages}
    (cursor : Cursor afterTime afterID)
    (done : readJournalPages service invokeIDs domain journal fuel round afterTime afterID pages
      state = some (outcome, next)) :
    ∃ collected ends got gotEnds,
      outcome = .ok ⟨pages.received ++ got, pages.ends ++ gotEnds⟩ ∧
      (∀ entry ∈ collected, entry ∈ entries) ∧ (∀ entry ∈ ends, entry ∈ entries) ∧
      List.Forall₂ (Received service.runtime) collected got ∧
      List.Forall₂ (Received service.runtime) ends gotEnds ∧
      RoundedWalk roundKey (entries.map journalKey) (cursorKey afterTime.truncated afterID)
        (ends.map journalKey) (collected.map journalKey) := by
  induction fuel generalizing round afterTime afterID pages state with
  | zero => cases done
  | succ fuel ih =>
    obtain ⟨page, got, follows, after, read, known, received, isPage⟩ :=
      readJournalStartAfter_page paged cursor (invokeIDs round) state
    rw [readJournalPages, read] at done
    cases follows with
    | false =>
      cases done
      exact ⟨page, [], got, [], by simp, known, nofun, received, .nil, .last isPage⟩
    | true =>
      simp only [Bool.not_true, Bool.false_eq_true, if_false] at done
      have nonempty : page ≠ [] := fun none => isPage.advances rfl (by rw [none]; rfl)
      obtain ⟨entry, last, ends, gotEnds, same⟩ := exists_getLast_of_forall₂ received nonempty
      rw [gotEnds] at done
      have member := known entry (List.mem_of_getLast? ends)
      obtain ⟨nextCursor, rounded⟩ := cursor_of_received paged member same
      obtain ⟨collected, laterEnds, laterGot, laterGotEnds, rfl, knownLater, knownEnds,
        receivedLater, receivedEnds, walk⟩ := ih nextCursor done
      rw [rounded] at walk
      refine ⟨page ++ collected, entry :: laterEnds, got ++ laterGot, last :: laterGotEnds,
        by simp, ?_, ?_, List.rel_append received receivedLater, .cons same receivedEnds, ?_⟩
      · exact fun other among => (List.mem_append.mp among).elim (known other) (knownLater other)
      · exact List.forall_mem_cons.mpr ⟨member, knownEnds⟩
      · rw [List.map_append, List.map_cons]
        exact .next isPage (by rw [List.getLast?_map, ends]; rfl) walk

include paged in
/-- With whole milliseconds every page but the last leaves fewer entries behind the cursor. -/
theorem readJournalPages_stops
    (whole : ∀ entry ∈ entries, entry.occurrenceTime.truncated = entry.occurrenceTime)
    (invokeIDs : Nat → UInt32) {fuel : Nat} (round : Nat) (cursor : Cursor afterTime afterID)
    (pages : JournalPages) (state : State)
    (enough : (behind (cursorKey afterTime.truncated afterID) (entries.map journalKey)).length <
      fuel) :
    ∃ outcome next, readJournalPages service invokeIDs domain journal fuel round afterTime afterID
      pages state = some (outcome, next) := by
  induction fuel generalizing round afterTime afterID pages state with
  | zero => omega
  | succ fuel ih =>
    obtain ⟨page, got, follows, after, read, known, received, isPage⟩ :=
      readJournalStartAfter_page paged cursor (invokeIDs round) state
    rw [readJournalPages, read]
    cases follows with
    | false => exact ⟨_, after, rfl⟩
    | true =>
      simp only [Bool.not_true, Bool.false_eq_true, if_false]
      have nonempty : page ≠ [] := fun none => isPage.advances rfl (by rw [none]; rfl)
      obtain ⟨entry, last, ends, gotEnds, same⟩ := exists_getLast_of_forall₂ received nonempty
      have listed := List.mem_of_getLast? ends
      have member := known entry listed
      obtain ⟨nextCursor, rounded⟩ := cursor_of_received paged member same
      have exact : roundKey (journalKey entry) = journalKey entry :=
        (roundKey_eq_iff (paged.times entry member) _).mpr (whole entry member)
      have fewer := length_behind_lt
        (isPage.front.subset (List.mem_map_of_mem (f := journalKey) listed))
      rw [gotEnds]
      exact ih (round + 1) nextCursor _ after (by rw [rounded, exact]; omega)

/-- Entries of a journal are told apart by a key that no two of them share. -/
theorem eq_of_map_eq {Key : Type*} {key : JournalEntry → Key} (distinct : (entries.map key).Nodup)
    {first second : List JournalEntry} (knownFirst : ∀ entry ∈ first, entry ∈ entries)
    (knownSecond : ∀ entry ∈ second, entry ∈ entries) (same : first.map key = second.map key) :
    first = second := by
  induction first generalizing second with
  | nil => exact (List.map_eq_nil_iff.mp same.symm).symm
  | cons entry first ih =>
    cases second with
    | nil => cases same
    | cons other second =>
      obtain ⟨knownEntry, knownFirst⟩ := List.forall_mem_cons.mp knownFirst
      obtain ⟨knownOther, knownSecond⟩ := List.forall_mem_cons.mp knownSecond
      obtain ⟨head, tail⟩ := List.cons.inj same
      rw [List.inj_on_of_nodup_map distinct knownEntry knownOther head,
        ih knownFirst knownSecond tail]

/-- The identifiers of what is received are those of the entries. -/
theorem map_entryID_received {runtime : Runtime} {sent got : List JournalEntry}
    (received : List.Forall₂ (Received runtime) sent got) :
    got.map (·.entryID) = sent.map (·.entryID) := by
  induction received with
  | nil => rfl
  | cons same _ ih => rw [List.map_cons, List.map_cons, same.entryID, ih]

end Pages

/-- A client that reads a journal page by page, from a cursor below all of it, receives every entry
once and in order exactly if no page that more follow ended at a fraction of a millisecond. If
there are no such times in the journal, the client stops and has received all of it. -/
theorem journalPaging_exact_iff {service : JournalService State} {domain journal : Octets}
    {entries : List JournalEntry} (paged : PagedJournal service domain journal entries)
    {afterTime : Instant} {afterID : Octets} (start : Cursor afterTime afterID)
    (below : ∀ entry ∈ entries, cursorKey afterTime afterID < journalKey entry)
    (invokeIDs : Nat → UInt32) (state : State) :
    (∀ fuel outcome next, readJournalPages service invokeIDs domain journal fuel 0 afterTime
        afterID {} state = some (outcome, next) → ∃ pages, outcome = .ok pages ∧
      (List.Forall₂ (Received service.runtime) entries pages.received ↔
        ∀ entry ∈ entries, entry.entryID ∈ pages.ends.map (·.entryID) →
          entry.occurrenceTime.truncated = entry.occurrenceTime)) ∧
    ((∀ entry ∈ entries, entry.occurrenceTime.truncated = entry.occurrenceTime) →
      ∀ fuel, entries.length < fuel → ∃ pages next,
        readJournalPages service invokeIDs domain journal fuel 0 afterTime afterID {} state =
          some (.ok pages, next) ∧
        List.Forall₂ (Received service.runtime) entries pages.received) := by
  have all : behind (cursorKey afterTime.truncated afterID) (entries.map journalKey) =
      entries.map journalKey := by
    refine List.filter_eq_self.mpr fun key member => decide_eq_true ?_
    obtain ⟨entry, known, rfl⟩ := List.mem_map.mp member
    rw [cursorKey_truncated start.time]
    exact (roundKey_le _).trans_lt (below entry known)
  have stopped : ∀ fuel outcome next, readJournalPages service invokeIDs domain journal fuel 0
      afterTime afterID {} state = some (outcome, next) → ∃ pages, outcome = .ok pages ∧
      (List.Forall₂ (Received service.runtime) entries pages.received ↔
        ∀ entry ∈ entries, entry.entryID ∈ pages.ends.map (·.entryID) →
          entry.occurrenceTime.truncated = entry.occurrenceTime) := by
    intro fuel outcome next done
    obtain ⟨collected, ends, got, gotEnds, rfl, known, knownEnds, received, receivedEnds, walk⟩ :=
      readJournalPages_walk paged start done
    refine ⟨_, rfl, ?_⟩
    have complete : List.Forall₂ (Received service.runtime) entries got ↔
        collected.map journalKey = entries.map journalKey := by
      constructor
      · intro exact
        have ids := (map_entryID_received received).symm.trans (map_entryID_received exact)
        rw [eq_of_map_eq paged.distinct known (fun _ member => member) ids]
      · intro same
        rwa [← eq_of_map_eq paged.sorted.nodup known (fun _ member => member) same]
    have rounds := walk.eq_behind_iff paged.sorted roundKey_le
    rw [all] at rounds
    simp only [List.nil_append]
    rw [complete, rounds, List.forall_mem_map, map_entryID_received receivedEnds]
    constructor
    · intro exact entry member among
      obtain ⟨last, ended, same⟩ := List.mem_map.mp among
      obtain rfl := List.inj_on_of_nodup_map paged.distinct (knownEnds last ended) member same
      exact (roundKey_eq_iff (paged.times last member) _).mp (exact last ended)
    · intro whole last ended
      exact (roundKey_eq_iff (paged.times last (knownEnds last ended)) _).mpr
        (whole last (knownEnds last ended) (List.mem_map_of_mem ended))
  refine ⟨stopped, fun whole fuel enough => ?_⟩
  obtain ⟨outcome, next, done⟩ := readJournalPages_stops paged whole invokeIDs 0 start {} state
    (by rw [all, List.length_map]; exact enough)
  obtain ⟨pages, rfl, exact⟩ := stopped fuel outcome next done
  exact ⟨pages, next, done, exact.mpr fun entry member _ => whole entry member⟩

/-- A server for the smallest PDU size with this journal. -/
def journalService (entries : List JournalEntry) : JournalService Unit where
  provider := some
    { readTimeRange := fun _ _ _ _ _ state => (.ok ⟨[], false⟩, state)
      readStartAfter := fun _ _ afterID afterTime _ state =>
        (.ok ⟨(laterEntries afterTime afterID entries).take 100,
          decide (100 < (laterEntries afterTime afterID entries).length)⟩, state) }
  runtime := default
  quote _ := ""
  maxPDU := 128

/-- An entry without variables whose identifier is 50 times the octet, so that one fits into a
response and two do not. -/
def wideEntry (octet : UInt8) (time : Instant) : JournalEntry :=
  ⟨List.replicate 50 octet, time, []⟩

/-- Two entries, the first the given fraction of a second after 2000-01-01, the second a second
later. -/
def twoEntries (nanoseconds : Int) : List JournalEntry :=
  [wideEntry 1 (.ofUnix 946684800 nanoseconds), wideEntry 2 (.ofUnix 946684801 0)]

theorem delivered_wideEntry (octet : UInt8) (time : Instant) :
    Delivered default (wideEntry octet time)
      (⟨List.replicate 50 octet, time, []⟩, ⟨List.replicate 50 octet, time.truncated, []⟩,
        wideEntry octet time.truncated) where
  toWire := ⟨rfl, rfl, .nil⟩
  arrives := ⟨by simp, rfl, rfl, .nil⟩
  fromWire := ⟨rfl, rfl, .nil⟩

theorem twoEntries_paged {nanoseconds : Int} (known : nanoseconds = 0 ∨ nanoseconds = 500000) :
    PagedJournal (journalService (twoEntries nanoseconds)) [0x64] [0x6a]
      (twoEntries nanoseconds) where
  provided := ⟨_, rfl, fun _ _ state => ⟨state, rfl⟩⟩
  domainShort := by decide
  journalNamed := by decide
  journalShort := by decide
  usable := show 5 ≤ (responseBudget 128).toInt by decide
  moderate := show (responseBudget 128).toInt + 4096 ≤ maxContent by decide
  distinct := show [List.replicate 50 (1 : UInt8), List.replicate 50 2].Nodup by decide
  times entry member := by
    rcases known with rfl | rfl <;> rcases List.mem_pair.mp member with rfl | rfl <;>
      exact ⟨by decide, by decide⟩
  sorted := by rcases known with rfl | rfl <;> decide
  delivered entry member := by
    rcases List.mem_pair.mp member with rfl | rfl
    · refine ⟨_, delivered_wideEntry _ _, ?_⟩
      rcases known with rfl | rfl <;> exact ⟨_, rfl, by decide⟩
    · exact ⟨_, delivered_wideEntry _ _, _, rfl, show _ ≤ (responseBudget 128).toInt by decide⟩

/-- Both entries of a journal with times of whole seconds are received. -/
theorem journalPaging_exact_wholeSeconds :
    ∃ pages next, readJournalPages (journalService (twoEntries 0)) UInt32.ofNat [0x64] [0x6a] 3 0
        (.ofUnix 946684700 0) [] {} () = some (.ok pages, next) ∧
      List.Forall₂ (Received default) (twoEntries 0) pages.received := by
  refine (journalPaging_exact_iff (twoEntries_paged (.inl rfl)) ⟨⟨by decide, by decide⟩, by decide⟩
    ?_ UInt32.ofNat ()).2 ?_ 3 (by decide)
  · intro entry member
    rcases List.mem_pair.mp member with rfl | rfl <;> decide
  · intro entry member
    rcases List.mem_pair.mp member with rfl | rfl <;> decide

/-- The response with the first of two entries half a millisecond into 2000-01-01. -/
def firstPage : Octets :=
  encodeTLV 0xa0 (encodeTLV 0x30 (encodeTLV 0x80 (List.replicate 50 1) ++
    emptyOriginatingApplication ++
    encodeTLV 0xa2 (encodeTLV 0x80 [0x00, 0x00, 0x00, 0x00, 0x16, 0xd4] ++
      encodeTLV 0xa2 (encodeTLV 0xa1 [])))) ++ encodeTLV 0x81 [0xff]

theorem decodeJournal_firstPage :
    decodeJournal (fun _ => "") default firstPage =
      .ok ⟨[wideEntry 1 (.ofUnix 946684800 0)], true⟩ := by
  let wire : JournalEntryWire := ⟨List.replicate 50 1, .ofUnix 946684800 500000, []⟩
  have marshalled : marshalReadJournalResponse default (fun _ => "") [wire] true =
      .ok firstPage := by decide +kernel
  obtain ⟨list, encoded, shape⟩ := marshalReadJournalResponse_iff.mp marshalled
  have size : firstPage.length < 128 := by decide +kernel
  have inner := length_le_encodeTLV 0xa0 list
  have outer : (encodeTLV 0xa0 list).length ≤ firstPage.length := by
    rw [shape, List.length_append]
    omega
  have arrives := (delivered_wideEntry 1 (.ofUnix 946684800 500000)).arrives
  have read := (unmarshalReadJournalResponse_iff encoded marshalled (by decide) (by omega)).mpr
    ⟨by unfold maxContent; omega, .cons arrives .nil, rfl⟩
  have back := @journalEntriesFromWire_of (fun _ => "") _ _
    (.cons (delivered_wideEntry 1 (.ofUnix 946684800 500000)).fromWire .nil)
  simp only [decodeJournal, read, back]
  rfl

/-- From a cursor below both entries, also from the first one without its fraction, the client gets
the first entry. -/
theorem readJournalStartAfter_fraction {afterTime : Instant} {afterID : Octets}
    (cursor : Cursor afterTime afterID)
    (below : ∀ entry ∈ twoEntries 500000, cursorKey afterTime.truncated afterID < journalKey entry)
    (invokeID : UInt32) (state : Unit) :
    readJournalStartAfter (journalService (twoEntries 500000)) invokeID [0x64] [0x6a] afterTime
        afterID state =
      (.ok ⟨[wideEntry 1 (.ofUnix 946684800 0)], true⟩, ()) := by
  obtain ⟨pdu, body, next, made, delivered, handled⟩ :=
    handleReadJournal_startAfter (twoEntries_paged (.inr rfl)) cursor invokeID state
  have both : laterEntries afterTime.truncated afterID (twoEntries 500000) = twoEntries 500000 :=
    List.filter_eq_self.mpr fun entry member => decide_eq_true (below entry member)
  have answered : (journalService (twoEntries 500000)).answerJournal ⟨(twoEntries 500000).take 100,
      decide (100 < (twoEntries 500000).length)⟩ = .response tagNumReadJournal true firstPage := by
    decide +kernel
  rw [both, answered] at handled
  have decoded : decodeJournal (journalService (twoEntries 500000)).quote
      (journalService (twoEntries 500000)).runtime firstPage = _ := decodeJournal_firstPage
  simp only [readJournalStartAfter, made, delivered, handled, decoded]

/-- The first entry is half a millisecond into its second. It ends the first page, and the cursor
made from it loses the fraction and lies before the entry again: the client receives the same entry
for ever, and never the second one. -/
theorem journalPaging_neverStops :
    PagedJournal (journalService (twoEntries 500000)) [0x64] [0x6a] (twoEntries 500000) ∧
      (∀ entry ∈ twoEntries 500000, cursorKey (.ofUnix 946684700 0) [] < journalKey entry) ∧
      ∀ fuel, readJournalPages (journalService (twoEntries 500000)) UInt32.ofNat [0x64] [0x6a]
        fuel 0
        (.ofUnix 946684700 0) [] {} () = none := by
  have repeats : ∀ fuel round pages, readJournalPages (journalService (twoEntries 500000))
      UInt32.ofNat [0x64] [0x6a] fuel round (.ofUnix 946684800 0) (List.replicate 50 1) pages () =
        none := by
    intro fuel
    induction fuel with
    | zero => exact fun _ _ => rfl
    | succ fuel ih =>
      intro round pages
      rw [readJournalPages, readJournalStartAfter_fraction ⟨⟨by decide, by decide⟩, by decide⟩
        (fun entry member => by rcases List.mem_pair.mp member with rfl | rfl <;> decide)]
      exact ih _ _
  have below : ∀ entry ∈ twoEntries 500000,
      cursorKey (.ofUnix 946684700 0) [] < journalKey entry := fun entry member => by
    rcases List.mem_pair.mp member with rfl | rfl <;> decide
  refine ⟨twoEntries_paged (.inr rfl), below, fun fuel => ?_⟩
  cases fuel with
  | zero => rfl
  | succ fuel =>
    rw [readJournalPages, readJournalStartAfter_fraction ⟨⟨by decide, by decide⟩, by decide⟩
      (fun entry member => by rcases List.mem_pair.mp member with rfl | rfl <;> decide)]
    exact repeats _ _ _

end GoMms.Mms
