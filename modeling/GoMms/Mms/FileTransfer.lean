import GoMms.Mms.Confirmed
import GoMms.Server.FileHandles

/-!
# Reading a file over the network

`FileOpen` and `FileReadAll` of the client against the file services of a server. Of the provider
it is assumed that it hands out the octets of a file one after another, in pieces of its own
choice (`Sequential`). The server skips to the initial position, the client reads until nothing
follows, and together they deliver the content from that position on (`fileTransfer_exact`).
-/

namespace GoMms.Mms

open Berutil Codec Pdu Server Serverconn Tracing Ledger

variable {State Handle : Type}

/-! ## The client -/

/-- The part of `dispatch` that concerns open files. -/
def dispatchFile (service : FileService State Handle) (state : FileState State Handle)
    (call : Call) : HandlerResult × FileState State Handle :=
  if call.serviceTag = 72 then handleFileOpen service call.serviceBody state
  else if call.serviceTag = 73 then handleFileRead service call.serviceBody state
  else if call.serviceTag = 74 then handleFileClose service call.serviceBody state
  else (errUnsupportedFeature, state)

/-- A connection of a server with these file services. -/
abbrev FileConn (State Handle : Type) := Conn (FileState State Handle)

section Client

variable (service : FileService State Handle)

def fileOpen (invokeID : UInt32) (fileName : Octets) (initialPosition : UInt32)
    (conn : FileConn State Handle) :
    Except RequestError FileOpenResult × FileConn State Handle :=
  let (reply, conn) := sendConfirmed ⟨service.maxPDU⟩ (dispatchFile service) invokeID
    (marshalFileOpenRequest invokeID fileName initialPosition) conn
  (expectService .fileOpen (unmarshalFileOpenResponse service.layout) reply, conn)

def fileRead (invokeID : UInt32) (frsmID : Int32) (conn : FileConn State Handle) :
    Except RequestError FileReadResult × FileConn State Handle :=
  let (reply, conn) := sendConfirmed ⟨service.maxPDU⟩ (dispatchFile service) invokeID
    (marshalFileReadRequest invokeID frsmID) conn
  (expectService .fileRead unmarshalFileReadResponse reply, conn)

/-- The loop of `FileReadAll`, or `none` while `fuel` requests do not suffice. The tracker issues
the invoke IDs. -/
def fileReadLoop (invokeIDs : Nat → UInt32) (frsmID : Int32) :
    (fuel round : Nat) → (buf : Octets) → FileConn State Handle →
      Option (Except RequestError Octets × FileConn State Handle)
  | 0, _, _, _ => none
  | fuel + 1, round, buf, conn =>
    match fileRead service (invokeIDs round) frsmID conn with
    | (.error error, conn) => some (.error error, conn)
    | (.ok chunk, conn) =>
      let buf := buf ++ chunk.data
      if !chunk.moreFollows then some (.ok buf, conn)
      else fileReadLoop invokeIDs frsmID fuel (round + 1) buf conn

def fileReadAll (invokeIDs : Nat → UInt32) (frsmID : Int32) (fuel : Nat)
    (conn : FileConn State Handle) :
    Option (Except RequestError Octets × FileConn State Handle) :=
  fileReadLoop service invokeIDs frsmID fuel 0 [] conn

end Client

/-! ## Sequential providers -/

/-- The provider hands out `content` under `path` piece by piece: `unread` tells which octets a
handle has left. A read returns at least one and at most `maxBytes` of them, none only at the end,
and reports whether there are more. -/
structure Sequential (provider : FileProvider State Handle) (path content : Octets)
    (unread : State → Handle → Octets → Prop) : Prop where
  opens : ∀ state, ∃ handle lastModified next,
    provider.openFile path state =
      (.ok (handle, ⟨Int64.ofNat content.length, lastModified⟩), next) ∧
    unread next handle content
  reads : ∀ state handle left maxBytes, unread state handle left → 0 < maxBytes.toInt →
    ∃ data rest next,
      provider.read handle maxBytes state = (.ok (data, decide (rest ≠ [])), next) ∧
      left = data ++ rest ∧ (data.length : Int) ≤ maxBytes.toInt ∧ (data = [] → left = []) ∧
      unread next handle rest

section Provider

variable {provider : FileProvider State Handle} {path content : Octets}
  {unread : State → Handle → Octets → Prop} (sequential : Sequential provider path content unread)
  {handle : Handle} {left : Octets} {world : FileWorld State Handle}

include sequential

theorem readCall_sequential (has : unread world.state handle left) {maxBytes : Int64}
    (positive : 0 < maxBytes.toInt) :
    ∃ data rest next, provider.readCall handle maxBytes world =
        (.ok (data, decide (rest ≠ [])), next) ∧
      left = data ++ rest ∧ (data.length : Int) ≤ maxBytes.toInt ∧ (data = [] → left = []) ∧
      unread next.state handle rest := by
  obtain ⟨data, rest, state, read, parts, few, progress, has'⟩ :=
    sequential.reads _ _ _ _ has positive
  refine ⟨data, rest, ⟨state, world.calls ++ [.touch handle]⟩, ?_, parts, few, progress, has'⟩
  simp only [FileProvider.readCall, World.call, read]

/-- Skipping a number of octets that are there. -/
theorem skipLoop_sequential (n : Nat) (enough : n ≤ left.length)
    (has : unread world.state handle left) :
    ∃ next, skipLoop provider handle n world = (none, next) ∧
      unread next.state handle (left.drop n) := by
  induction n using Nat.strong_induction_on generalizing left world with
  | _ n ih =>
    rw [skipLoop]
    by_cases done : n = 0
    · subst done
      exact ⟨world, by simp, by simpa using has⟩
    · have chunk : (Int64.ofInt (min (n : Int) (64 * 1024))).toInt = min (n : Int) (64 * 1024) :=
        Int64.toInt_ofInt_of_le (by omega) (by omega)
      obtain ⟨data, rest, next, read, rfl, few, progress, has'⟩ :=
        readCall_sequential sequential has (show 0 < Int64.toInt _ by rw [chunk]; omega)
      rw [chunk] at few
      rw [List.length_append] at enough
      have nonempty : data ≠ [] := fun none => by
        have empty := congrArg List.length (progress none)
        rw [List.length_append, List.length_nil] at empty
        omega
      have shorter : 0 < data.length := List.length_pos_iff.mpr nonempty
      -- What is still to skip is there, so the provider has reported more.
      have proceeds : ¬(0 < (n : Int) - data.length ∧
          (¬decide (rest ≠ []) = true ∨ data = [])) := by
        rintro ⟨remaining, stopped | none⟩
        · obtain rfl : rest = [] := by simpa using stopped
          rw [List.length_nil] at enough
          omega
        · exact nonempty none
      obtain ⟨last, skipped, has''⟩ := ih (n - data.length) (by omega) (by omega) has'
      refine ⟨last, ?_, ?_⟩
      · rw [if_pos (by omega), read, ← skipped, Int.ofNat_sub (by omega)]
        simp only [if_neg proceeds]
      · rwa [List.drop_append, List.drop_eq_nil_of_le (by omega), List.nil_append]

theorem openCall_sequential (world : FileWorld State Handle) :
    ∃ handle lastModified state, provider.openCall path world =
        (.ok (handle, ⟨Int64.ofNat content.length, lastModified⟩),
          ⟨state, world.calls ++ [.acquire handle]⟩) ∧
      unread state handle content := by
  obtain ⟨handle, lastModified, state, opened, has⟩ := sequential.opens world.state
  refine ⟨handle, lastModified, state, ?_, has⟩
  simp only [FileProvider.openCall, World.call, opened]

/-- A position within the file is reached. -/
theorem skipToPosition_sequential {req : FileOpenRequest} {attrs : FileAttributes}
    (size : attrs.size.toInt = content.length) (within : req.initialPosition.toNat ≤ content.length)
    (has : unread world.state handle content) :
    ∃ next, skipToPosition provider handle req attrs world = (none, next) ∧
      unread next.state handle (content.drop req.initialPosition.toNat) := by
  unfold skipToPosition
  split
  · rw [skipFileBytes, if_neg (by omega)]
    exact skipLoop_sequential sequential _ within has
  rename_i start
  obtain zero : req.initialPosition.toNat = 0 := by
    rw [gt_iff_lt, UInt32.lt_iff_toNat_lt] at start
    exact Nat.eq_zero_of_not_pos start
  exact ⟨world, rfl, by rwa [zero, List.drop_zero]⟩

omit sequential in
/-- A position behind the end is refused before anything is read. -/
theorem skipToPosition_behind {req : FileOpenRequest} {attrs : FileAttributes}
    (size : attrs.size.toInt = content.length) (behind : content.length < req.initialPosition.toNat)
    (world : FileWorld State Handle) :
    skipToPosition provider handle req attrs world = (some positionInvalid, world) := by
  have positive : req.initialPosition > 0 := UInt32.lt_iff_toNat_lt.mpr (Nat.zero_lt_of_lt behind)
  rw [skipToPosition, if_pos positive, skipFileBytes, if_pos (by omega)]

end Provider

/-! ## Transfers -/

/-- The connection has a file open under `frsmID`, of which `left` has not been read. -/
def Reading (unread : State → Handle → Octets → Prop) (conn : FileConn State Handle)
    (frsmID : Int32) (left : Octets) : Prop :=
  ∃ table frsm, conn.handlerState.table = some table ∧ table.get frsmID = some frsm ∧
    unread conn.handlerState.world.state frsm.handle left

/-- What the server has sent in between are PDUs within the negotiated size. -/
def SendsWithin (maxPDU : Int64) (conn after : FileConn State Handle) : Prop :=
  ∃ pdus : List Octets, after.sent = conn.sent ++ pdus.map Isostack.encodeDataRequest ∧
    ∀ pdu ∈ pdus, (pdu.length : Int) ≤ maxPDU.toInt

theorem SendsWithin.trans {maxPDU : Int64} {conn next after : FileConn State Handle}
    (first : SendsWithin maxPDU conn next) (second : SendsWithin maxPDU next after) :
    SendsWithin maxPDU conn after := by
  obtain ⟨pdus, sent, fit⟩ := first
  obtain ⟨more, sentMore, fitMore⟩ := second
  refine ⟨pdus ++ more, ?_, fun pdu member => ?_⟩
  · rw [sentMore, sent, List.map_append, List.append_assoc]
  · exact (List.mem_append.mp member).elim (fit pdu) (fitMore pdu)

theorem sendsWithin_answer {maxPDU : Int64} (usable : 32 ≤ maxPDU.toInt)
    (handler : FileState State Handle → Call → HandlerResult × FileState State Handle)
    (conn : FileConn State Handle) (call : Call) :
    SendsWithin maxPDU conn (conn.answer ⟨maxPDU⟩ handler call) :=
  ⟨[confirmedReply ⟨maxPDU⟩ call.invokeID (handler conn.handlerState call).1], rfl,
    fun pdu member => by
    rw [List.mem_singleton.mp member]
    exact length_confirmedReply_le usable _ _⟩

section Transfer

variable {service : FileService State Handle} {provider : FileProvider State Handle}
  {path content : Octets} {unread : State → Handle → Octets → Prop}
  (configured : service.provider = some provider)
  (size : 128 ≤ service.maxPDU.toInt ∧ service.maxPDU.toInt ≤ 65535)
  (sequential : Sequential provider path content unread)

include size in
/-- A response whose payload is within the budget travels. -/
theorem travels_response (invokeID : UInt32) {tag : Int64} (known : tag.toInt ≤ 127)
    (constructed : Bool) {payload : Octets}
    (fits : (payload.length : Int) ≤ service.maxPDU.toInt - 16) :
    ((marshalConfirmedResponse invokeID tag constructed payload).length : Int) ≤
        service.maxPDU.toInt ∧
      Travels ⟨service.maxPDU⟩ (marshalConfirmedResponse invokeID tag constructed payload) := by
  have within := @length_response_le service.maxPDU tag invokeID ⟨size.1, by omega⟩ known
    (.inl (by omega)) constructed payload (by rw [toInt_responseBudget size.1]; exact fits)
  exact ⟨within, travels_of_le (show 0 < service.maxPDU.toInt by omega)
    (show service.maxPDU.toInt + 33 < maxContent by unfold maxContent; omega) within⟩

include size in
theorem travels_fileReadRequest (invokeID : UInt32) (frsmID : Int32) :
    Travels ⟨service.maxPDU⟩ (marshalFileReadRequest invokeID frsmID) := by
  have number := length_encodeInt_le frsmID.toInt64
  have same := length_marshalConfirmedRequest invokeID tagNumFileRead false
    (encodeInt frsmID.toInt64)
  have response := (travels_response size invokeID (show tagNumFileRead.toInt ≤ 127 by decide)
    false (show ((encodeInt frsmID.toInt64).length : Int) ≤ _ by omega)).1
  exact travels_of_le (show 0 < service.maxPDU.toInt by omega)
    (show service.maxPDU.toInt + 33 < maxContent by unfold maxContent; omega)
    (by rw [marshalFileReadRequest, same]; exact response)

/-- The header of the data and the flag take at most seven octets. -/
theorem length_marshalFileReadResponse_le {data : Octets} (short : data.length < 256 ^ 2)
    (moreFollows : Bool) :
    (marshalFileReadResponse data moreFollows).length ≤ data.length + 7 := by
  have header := (lengthSize_le_iff data.length (show 0 < 2 by decide)).mpr short
  rw [marshalFileReadResponse, List.length_append, length_encodeTLV, tlvSize]
  split
  · rw [List.length_nil]
    omega
  · rw [length_encodeTLV_short 0x81 (by decide), List.length_singleton]
    omega

variable {frsmID : Int32} {left : Octets}

include configured size sequential in
/-- The server answers a FileRead with the next octets, and whether there are more. -/
theorem handleFileRead_sequential {state : FileState State Handle} {table : FrsmTable Handle}
    {frsm : Frsm Handle} {body : Octets} (known : state.table = some table)
    (found : table.get frsmID = some frsm) (has : unread state.world.state frsm.handle left)
    (asks : unmarshalFileReadRequest body = .ok frsmID) :
    ∃ data rest next, handleFileRead service body state =
        (.response tagNumFileRead true (marshalFileReadResponse data (decide (rest ≠ []))),
          { state with world := next }) ∧
      left = data ++ rest ∧ (data.length : Int) ≤ service.maxPDU.toInt - 24 ∧
      (data = [] → left = []) ∧ unread next.state frsm.handle rest := by
  have budget : (responseBudget service.maxPDU - 8).toInt = service.maxPDU.toInt - 24 := by
    have eight : (8 : Int64).toInt = 8 := rfl
    rw [Int64.toInt_sub, toInt_responseBudget size.1, eight,
      Int.bmod_eq_of_le (by omega) (by omega)]
    omega
  obtain ⟨data, rest, next, read, parts, few, progress, has'⟩ :=
    readCall_sequential sequential has (show 0 < Int64.toInt _ by rw [budget]; omega)
  rw [budget] at few
  refine ⟨data, rest, next, ?_, parts, few, progress, has'⟩
  simp only [handleFileRead, configured, asks, known, found, read]

include configured size sequential in
/-- One FileRead of the client delivers the next octets, and whether there are more. -/
theorem fileRead_sequential {conn : FileConn State Handle}
    (reading : Reading unread conn frsmID left) (invokeID : UInt32) :
    ∃ data rest after, fileRead service invokeID frsmID conn =
        (.ok ⟨data, decide (rest ≠ [])⟩, after) ∧
      left = data ++ rest ∧ (data = [] → left = []) ∧ Reading unread after frsmID rest ∧
      SendsWithin service.maxPDU conn after := by
  obtain ⟨table, frsm, known, found, has⟩ := reading
  obtain ⟨body, delivers, asks⟩ :
      ArrivesAs (marshalFileReadRequest invokeID frsmID) invokeID tagNumFileRead
        unmarshalFileReadRequest frsmID :=
    frsmID_arrives invokeID (by decide) (fun _ => rfl) frsmID
  have tag : tagNumFileRead.toInt.toNat = 73 := by decide
  rw [tag] at delivers
  obtain ⟨data, rest, next, handled, parts, few, progress, has'⟩ :=
    handleFileRead_sequential configured size sequential known found has asks
  have payload := length_marshalFileReadResponse_le (show data.length < 256 ^ 2 by omega)
    (decide (rest ≠ []))
  obtain ⟨-, travels⟩ := travels_response size invokeID
    (show tagNumFileRead.toInt ≤ 127 by decide) true
    (show ((marshalFileReadResponse data (decide (rest ≠ []))).length : Int) ≤ _ by omega)
  have dispatched : dispatchFile service conn.handlerState ⟨invokeID, 73, body⟩ =
      (.response tagNumFileRead true (marshalFileReadResponse data (decide (rest ≠ []))),
        { conn.handlerState with world := next }) := handled
  have decoded := fileReadResponse_roundTrip (show data.length < maxContent by
    unfold maxContent; omega) (decide (rest ≠ []))
  refine ⟨data, rest, conn.answer ⟨service.maxPDU⟩ (dispatchFile service) ⟨invokeID, 73, body⟩, ?_,
    parts, progress, ⟨table, frsm, ?_, found, ?_⟩, sendsWithin_answer (by omega) _ _ _⟩
  · rw [fileRead, sendConfirmed_eq (travels_fileReadRequest size invokeID frsmID) delivers]
    refine Prod.ext ?_ rfl
    dsimp only
    rw [dispatched]
    exact expectService_response (by decide) travels rfl decoded
  · rw [handlerState_answer, dispatched, known]
  · rwa [handlerState_answer, dispatched]

include configured size sequential in
/-- The loop reads to the end of the file, with one request for each octet at most. -/
theorem fileReadLoop_sequential (invokeIDs : Nat → UInt32) {fuel : Nat} (round : Nat) (buf : Octets)
    {conn : FileConn State Handle} (reading : Reading unread conn frsmID left)
    (enough : left.length < fuel) :
    ∃ after, fileReadLoop service invokeIDs frsmID fuel round buf conn =
        some (.ok (buf ++ left), after) ∧
      SendsWithin service.maxPDU conn after := by
  induction fuel generalizing round buf conn left with
  | zero => omega
  | succ fuel ih =>
    obtain ⟨data, rest, next, read, rfl, progress, reading', sends⟩ :=
      fileRead_sequential configured size sequential reading (invokeIDs round)
    by_cases last : rest = []
    · subst last
      refine ⟨next, ?_, sends⟩
      simp [fileReadLoop, read]
    · have shorter : 0 < data.length := by
        refine List.length_pos_iff.mpr fun none => last ?_
        exact (List.append_eq_nil_iff.mp (progress none)).2
      rw [List.length_append] at enough
      obtain ⟨after, collected, sendsMore⟩ := ih (round + 1) (buf ++ data) reading' (by omega)
      refine ⟨after, ?_, sends.trans sendsMore⟩
      rw [fileReadLoop, read]
      simp only [last, ne_eq, not_false_eq_true, decide_true, Bool.not_true, Bool.false_eq_true,
        if_false, collected, List.append_assoc]

section Open

variable (lawful : service.layout.Lawful) (short : content.length ≤ 2 ^ 32 - 1)
  {conn : FileConn State Handle} {table : FrsmTable Handle} {call : Call} {position : UInt32}
  (known : conn.handlerState.table = some table) (isOpen : call.serviceTag = 72)
  (asks : unmarshalFileOpenRequest call.serviceBody = .ok ⟨path, position⟩)

include short in
theorem toInt_size : (Int64.ofNat content.length).toInt = content.length :=
  Int64.toInt_ofNat_of_lt (by omega)

include configured sequential short lawful known isOpen asks in
/-- FileOpen at a position within the file enters it, with the octets before the position read. -/
theorem dispatchFile_open_within (within : position.toNat ≤ content.length) :
    ∃ frsmID lastModified payload next,
      dispatchFile service conn.handlerState call = (.response tagNumFileOpen true payload, next) ∧
      payload.length ≤ 50 ∧
      (∀ shown, service.layout.Shows lastModified shown →
        unmarshalFileOpenResponse service.layout payload =
          .ok ⟨frsmID, Int64.ofNat content.length, shown⟩) ∧
      ∃ table frsm, next.table = some table ∧ table.get frsmID = some frsm ∧
        unread next.world.state frsm.handle (content.drop position.toNat) := by
  obtain ⟨handle, lastModified, state, opened, has⟩ :=
    openCall_sequential sequential conn.handlerState.world
  have size := toInt_size short
  obtain ⟨world, skipped, has'⟩ := @skipToPosition_sequential _ _ _ _ _ _ sequential handle
    ⟨state, conn.handlerState.world.calls ++ [.acquire handle]⟩ ⟨path, position⟩
    ⟨Int64.ofNat content.length, lastModified⟩ size within has
  obtain ⟨payload, encoded, few, shown⟩ := fileOpenResponse_shows lawful
    (show FileSize (Int64.ofNat content.length) by unfold FileSize; omega) lastModified
    (table.alloc path handle).1
  let entered : FileState State Handle :=
    ⟨⟨world.state, world.calls ++ [.note (.allocated (table.alloc path handle).1 handle)]⟩,
      some (table.alloc path handle).2⟩
  refine ⟨(table.alloc path handle).1, lastModified, payload, entered, ?_, few, shown,
    (table.alloc path handle).2, ⟨(table.alloc path handle).1, handle, path⟩, rfl, ?_, has'⟩
  · rw [dispatchFile, if_pos isOpen, handleFileOpen_inPosition configured asks opened skipped,
      enterFile, known]
    simp only [encoded]
    rfl
  · exact AList.lookup_insert _

include configured sequential short known isOpen asks in
/-- FileOpen at a position behind the end closes the handle again. -/
theorem dispatchFile_open_behind (behind : content.length < position.toNat) :
    ∃ handle next, dispatchFile service conn.handlerState call = (positionInvalid, next) ∧
      next.world.calls = conn.handlerState.world.calls ++ [.acquire handle, .release handle] ∧
      next.table = some table := by
  obtain ⟨handle, lastModified, state, opened, -⟩ :=
    openCall_sequential sequential conn.handlerState.world
  have skipped := @skipToPosition_behind _ _ provider content handle ⟨path, position⟩
    ⟨Int64.ofNat content.length, lastModified⟩ (toInt_size short) behind
    ⟨state, conn.handlerState.world.calls ++ [.acquire handle]⟩
  let closed : FileState State Handle :=
    { conn.handlerState with
      world := (provider.closeCall handle
        ⟨state, conn.handlerState.world.calls ++ [.acquire handle]⟩).2 }
  refine ⟨handle, closed, ?_, ?_, known⟩
  · rw [dispatchFile, if_pos isOpen, handleFileOpen_skipError configured asks opened skipped]
  · rw [calls_closeCall, List.append_assoc]
    rfl

end Open

end Transfer

/-- A transfer delivers the exact content. FileOpen within the file answers with a handle, and
FileReadAll on it ends with the content from the position on; FileOpen behind the end fails and
leaves the handle closed. A client learns the handle and the size if it can read the time that the
provider reports. -/
theorem fileTransfer_exact (service : FileService State Handle)
    {provider : FileProvider State Handle} {path content : Octets}
    {unread : State → Handle → Octets → Prop} (configured : service.provider = some provider)
    (lawful : service.layout.Lawful)
    (size : 128 ≤ service.maxPDU.toInt ∧ service.maxPDU.toInt ≤ 65535)
    (sequential : Sequential provider path content unread) (short : content.length ≤ 2 ^ 32 - 1)
    {conn : FileConn State Handle} {table : FrsmTable Handle}
    (known : conn.handlerState.table = some table) {call : Call} {position : UInt32}
    (isOpen : call.serviceTag = 72)
    (asks : unmarshalFileOpenRequest call.serviceBody = .ok ⟨path, position⟩) :
    let opened := conn.answer ⟨service.maxPDU⟩ (dispatchFile service) call
    let reply := awaitReply ⟨service.maxPDU⟩ call.invokeID (opened.sent.drop conn.sent.length)
    SendsWithin service.maxPDU conn opened ∧
    (position.toNat ≤ content.length → ∃ frsmID lastModified payload,
      reply = .ok ⟨call.invokeID, .fileOpen, ⟨2, 72, true, payload⟩⟩ ∧
      (∀ shown, service.layout.Shows lastModified shown →
        expectService .fileOpen (unmarshalFileOpenResponse service.layout) reply =
          .ok ⟨frsmID, Int64.ofNat content.length, shown⟩) ∧
      ∀ invokeIDs fuel, content.length - position.toNat < fuel → ∃ after,
        fileReadAll service invokeIDs frsmID fuel opened =
          some (.ok (content.drop position.toNat), after) ∧
        SendsWithin service.maxPDU opened after) ∧
    (content.length < position.toNat →
      expectService .fileOpen (unmarshalFileOpenResponse service.layout) reply =
        .error (.service fileErrClassFile fileErrPositionInvalid call.invokeID) ∧
      opened.handlerState.table = some table ∧
      ∃ handle, opened.handlerState.world.calls =
        conn.handlerState.world.calls ++ [.acquire handle, .release handle]) := by
  intro opened reply
  have usable : 0 < (⟨service.maxPDU⟩ : MMSOptions).maxPDUSize.toInt := by
    change 0 < service.maxPDU.toInt
    omega
  have moderate : (⟨service.maxPDU⟩ : MMSOptions).maxPDUSize.toInt + 33 < maxContent := by
    change service.maxPDU.toInt + 33 < maxContent
    unfold maxContent
    omega
  have sent : opened.sent.drop conn.sent.length = [Isostack.encodeDataRequest (confirmedReply
      ⟨service.maxPDU⟩ call.invokeID (dispatchFile service conn.handlerState call).1)] := by
    simp [opened]
  refine ⟨sendsWithin_answer (by omega) _ _ _, fun within => ?_, fun behind => ?_⟩
  · obtain ⟨frsmID, lastModified, payload, next, handled, few, shown, reading⟩ :=
      dispatchFile_open_within configured sequential lawful short known isOpen asks within
    obtain ⟨-, travels⟩ := travels_response size call.invokeID
      (show tagNumFileOpen.toInt ≤ 127 by decide) true
      (show (payload.length : Int) ≤ _ by omega)
    rw [handled] at sent
    refine ⟨frsmID, lastModified, payload, ?_, fun time shows => ?_,
      fun invokeIDs fuel enough => ?_⟩
    · rw [show reply = _ from congrArg _ sent]
      exact awaitReply_response (by decide) travels
    · rw [show reply = _ from congrArg _ sent]
      exact expectService_response (by decide) travels rfl (shown time shows)
    · have open_ : Reading unread opened frsmID (content.drop position.toNat) := by
        rw [Reading, handlerState_answer, handled]
        exact reading
      exact fileReadLoop_sequential configured size sequential invokeIDs 0 [] open_
        (by rw [List.length_drop]; exact enough)
  · obtain ⟨handle, next, handled, calls, kept⟩ :=
      dispatchFile_open_behind configured sequential short known isOpen asks behind
    have bound := length_marshalConfirmedError_le call.invokeID fileErrClassFile
      fileErrPositionInvalid
    rw [handled] at sent
    refine ⟨?_, ?_, handle, ?_⟩
    · rw [show reply = _ from congrArg _ sent, positionInvalid,
        awaitReply_serviceError (by decide) (by decide) (by decide)
          (travels_of_le usable moderate (show _ ≤ service.maxPDU.toInt by omega))]
      rfl
    · rw [handlerState_answer, handled, kept]
    · rw [handlerState_answer, handled, calls]

/-- A file of five octets, handed out by twos. -/
def sampleProvider : FileProvider Octets Unit where
  openFile _ _ := (.ok ((), ⟨5, .zero⟩), [1, 2, 3, 4, 5])
  read _ maxBytes state :=
    let n := min 2 maxBytes.toInt.toNat
    (.ok (state.take n, decide (state.drop n ≠ [])), state.drop n)
  close _ state := (.ok (), state)

theorem sampleProvider_sequential :
    Sequential sampleProvider [0x61] [1, 2, 3, 4, 5] fun state _ left => state = left where
  opens _ := ⟨(), .zero, [1, 2, 3, 4, 5], rfl, rfl⟩
  reads := by
    rintro state - left maxBytes rfl positive
    refine ⟨state.take (min 2 maxBytes.toInt.toNat),
      state.drop (min 2 maxBytes.toInt.toNat), _, rfl,
      (List.take_append_drop _ _).symm, ?_, fun none => ?_, rfl⟩
    · rw [List.length_take]
      omega
    · rcases List.take_eq_nil_iff.mp none with zero | empty
      · omega
      · exact empty

def sampleService : FileService Octets Unit := ⟨some sampleProvider, secondsLayout, 128⟩

/-- Opened at the fourth octet of five, the file is read to its end by two requests. -/
theorem fileTransfer_exact_sampleFile :
    ∃ frsmID after, fileReadAll sampleService UInt32.ofNat frsmID 3
        ((⟨FileState.new [], [], []⟩ : FileConn Octets Unit).answer ⟨128⟩
          (dispatchFile sampleService)
          ⟨7, 72, encodeFileName [0x61] ++ encodeTLV 0x81 (encodeUint32 3)⟩) =
      some (.ok [4, 5], after) := by
  obtain ⟨-, within, -⟩ := fileTransfer_exact sampleService rfl secondsLayout_lawful (by decide)
    sampleProvider_sequential (by decide)
    (show (⟨FileState.new [], [], []⟩ : FileConn Octets Unit).handlerState.table = some {} from rfl)
    (show (⟨7, 72, encodeFileName [0x61] ++ encodeTLV 0x81 (encodeUint32 3)⟩ : Call).serviceTag = 72
      from rfl)
    (unmarshalFileOpenRequest_encode (by decide) (by decide) 3)
  obtain ⟨frsmID, lastModified, payload, -, -, reads⟩ := within (by decide)
  obtain ⟨after, collected, -⟩ := reads UInt32.ofNat 3 (by decide)
  exact ⟨frsmID, after, collected⟩

end GoMms.Mms
