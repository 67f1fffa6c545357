import GoMms.Berutil.Tlv

/-!
# Session PDUs

`internal/session`: the seven SPDUs the stack knows. A DATA SPDU has a fixed four-octet header;
the others carry a list of parameters, each an identifier, a length field and a value.
-/

namespace GoMms.Session

open Octets Berutil

/-- The SPDU types `Parse` accepts. -/
inductive SpduType where
  | connect
  | accept
  | data
  | finish
  | disconnect
  | abort
  | refuse
  deriving DecidableEq, Repr

namespace SpduType

/-- The session identifier octet. -/
def si : SpduType → UInt8
  | connect => 0x0d
  | accept => 0x0e
  | data => 0x01
  | finish => 0x09
  | disconnect => 0x0a
  | abort => 0x19
  | refuse => 0x0c

def string : SpduType → String
  | connect => "CONNECT"
  | accept => "ACCEPT"
  | data => "DATA"
  | finish => "FINISH"
  | disconnect => "DISCONNECT"
  | abort => "ABORT"
  | refuse => "REFUSE"

end SpduType

def pgiConnAcceptItem : UInt8 := 0x05
def pgiTransportDisc : UInt8 := 0x11
def pgiSessionUserReq : UInt8 := 0x14
def pgiCallingSelector : UInt8 := 0x33
def pgiCalledSelector : UInt8 := 0x34
def pgiUserData : UInt8 := 0xc1

def piProtocolOpts : UInt8 := 0x13
def piVersion : UInt8 := 0x16

/-- `maxLI`: the largest length the length field can carry. -/
def maxLI : Nat := 0xffff

structure ConnectParams where
  callingSelector : Octets := []
  calledSelector : Octets := []
  deriving DecidableEq, Repr

structure ParsedSpdu where
  type : SpduType
  callingSelector : Octets := []
  calledSelector : Octets := []
  userData : Octets := []
  deriving DecidableEq, Repr

/-! ## Encoding -/

/-- `appendLI`, without the buffer it appends to. -/
def appendLI (length : Nat) : Octets :=
  if length < 0xff then [UInt8.ofNat length] else 0xff :: beOctets 2 (min length maxLI)

def appendPGI (tag : UInt8) (content : Octets) : Octets :=
  tag :: appendLI content.length ++ content

def encodeSPDU (si : UInt8) (params : Octets) : Except String Octets :=
  if params.length > maxLI then
    .error ("session: SPDU 0x" ++ hex02 si ++ " parameters " ++ toString params.length ++
      " bytes exceed " ++ toString maxLI)
  else .ok (si :: appendLI params.length ++ params)

def encodeConnectAccept (si : UInt8) (calling called userData : Octets) : Except String Octets :=
  let connAccept := [piProtocolOpts, 0x01, 0x00, piVersion, 0x01, 0x02]
  let params := appendPGI pgiConnAcceptItem connAccept
  let params := params ++ [pgiSessionUserReq, 0x02, 0x00, 0x02]
  let params :=
    if calling.length > 0 then params ++ appendPGI pgiCallingSelector calling else params
  let params := if called.length > 0 then params ++ appendPGI pgiCalledSelector called else params
  let params := if userData.length > 0 then params ++ appendPGI pgiUserData userData else params
  encodeSPDU si params

def encodeConnect (p : ConnectParams) (userData : Octets) : Except String Octets :=
  encodeConnectAccept SpduType.connect.si p.callingSelector p.calledSelector userData

def encodeAccept (p : ConnectParams) (userData : Octets) : Except String Octets :=
  encodeConnectAccept SpduType.accept.si p.callingSelector p.calledSelector userData

def dataSpduHeader : Octets := [0x01, 0x00, 0x01, 0x00]

def encodeData (userData : Octets) : Octets := dataSpduHeader ++ userData

def encodeSimpleWithUserData (si : UInt8) (userData : Octets) : Except String Octets :=
  encodeSPDU si (appendPGI pgiUserData userData)

def encodeDisconnect (userData : Octets) : Except String Octets :=
  encodeSimpleWithUserData SpduType.disconnect.si userData

def encodeAbort (userData : Octets) : Except String Octets :=
  let params := [pgiTransportDisc, 0x01, 0x0b]
  encodeSPDU SpduType.abort.si
    (if userData.length > 0 then params ++ appendPGI pgiUserData userData else params)

/-! ## Parsing -/

/-- `decodePGILength`: the length and the size of the length field. -/
def decodePGILength : Octets → Except String (Nat × Nat)
  | [] => .error "missing length byte"
  | lead :: rest =>
    if lead ≠ 0xff then .ok (lead.toNat, 1)
    else if rest.length < 2 then .error "truncated extended length"
    else .ok (beNat (rest.take 2), 3)

/-- One pass of a parameter loop that ends at `stop`; `store` keeps the values it knows. -/
def parseParameter (data : Octets) (stop : Nat) (store : UInt8 → Octets → ParsedSpdu → ParsedSpdu)
    (result : ParsedSpdu) (offset : Nat) : Except String (LoopStep ParsedSpdu) :=
  if offset + 2 > stop then .ok (.stop result offset)
  else
    let pgi := data.getD offset 0
    match decodePGILength (data.drop (offset + 1)) with
    | .error text =>
      .error ("session: " ++ result.type.string ++ " SPDU parameter length: " ++ text)
    | .ok (pgiLen, lenBytes) =>
      let start := offset + 1 + lenBytes
      if start + pgiLen > data.length then
        .error ("session: " ++ result.type.string ++ " SPDU parameter 0x" ++ hex02 pgi ++
          " truncated")
      else .ok (.next (store pgi ((data.drop start).take pgiLen) result) (start + pgiLen))

/-- The parameters of CONNECT and ACCEPT; other identifiers are skipped. -/
def storeConnectAccept (pgi : UInt8) (value : Octets) (result : ParsedSpdu) : ParsedSpdu :=
  if pgi = pgiCallingSelector then { result with callingSelector := value }
  else if pgi = pgiCalledSelector then { result with calledSelector := value }
  else if pgi = pgiUserData then { result with userData := value }
  else result

/-- The parameters of the simple SPDUs; other identifiers are skipped. -/
def storeUserData (pgi : UInt8) (value : Octets) (result : ParsedSpdu) : ParsedSpdu :=
  if pgi = pgiUserData then { result with userData := value } else result

def parseConnectAccept (data : Octets) (result : ParsedSpdu) : Except String ParsedSpdu :=
  match decodePGILength (data.drop 1) with
  | .error text => .error ("session: " ++ result.type.string ++ " SPDU length: " ++ text)
  | .ok (li, liLen) =>
    let headerEnd := 1 + liLen + li
    if data.length < headerEnd then
      .error ("session: " ++ result.type.string ++ " SPDU truncated (need " ++
        toString headerEnd ++ ", have " ++ toString data.length ++ ")")
    else
      match offsetLoop headerEnd (parseParameter data headerEnd storeConnectAccept) result
          (1 + liLen) with
      | .error text => .error text
      | .ok (result, offset) =>
        if offset ≠ headerEnd then
          .error ("session: " ++ result.type.string ++ " SPDU " ++
            toString ((headerEnd : Int) - offset) ++ " trailing bytes in header")
        else .ok result

def parseSimpleWithUserData (data : Octets) (result : ParsedSpdu) : Except String ParsedSpdu :=
  match decodePGILength (data.drop 1) with
  | .error text => .error ("session: " ++ result.type.string ++ " SPDU length: " ++ text)
  | .ok (li, liLen) =>
    let stop := 1 + liLen + li
    if data.length < stop then
      .error ("session: " ++ result.type.string ++ " SPDU truncated")
    else
      match offsetLoop stop (parseParameter data stop storeUserData) result (1 + liLen) with
      | .error text => .error text
      | .ok (result, offset) =>
        if offset ≠ stop then
          .error ("session: " ++ result.type.string ++ " SPDU " ++
            toString ((stop : Int) - offset) ++ " trailing bytes")
        else .ok result

def parseData (data : Octets) (result : ParsedSpdu) : Except String ParsedSpdu :=
  if data.length < 4 then
    .error ("session: DATA SPDU too short (" ++ toString data.length ++ " bytes)")
  else if data.take 4 ≠ dataSpduHeader then
    .error ("session: DATA SPDU invalid header " ++ String.join ((data.take 4).map hex02) ++
      ", expected 01000100")
  else .ok { result with userData := data.drop 4 }

def parseRefuse (data : Octets) (result : ParsedSpdu) : Except String ParsedSpdu :=
  match decodePGILength (data.drop 1) with
  | .error text => .error ("session: REFUSE SPDU length: " ++ text)
  | .ok (li, liLen) =>
    if data.length < 1 + liLen + li then .error "session: REFUSE SPDU truncated"
    else .ok result

/-- `Parse`, which dispatches on the session identifier. -/
def parse (data : Octets) : Except String ParsedSpdu :=
  match data with
  | si :: _ :: _ =>
    if si = SpduType.data.si then parseData data { type := .data }
    else if si = SpduType.connect.si then parseConnectAccept data { type := .connect }
    else if si = SpduType.accept.si then parseConnectAccept data { type := .accept }
    else if si = SpduType.finish.si then parseSimpleWithUserData data { type := .finish }
    else if si = SpduType.disconnect.si then
      parseSimpleWithUserData data { type := .disconnect }
    else if si = SpduType.abort.si then parseSimpleWithUserData data { type := .abort }
    else if si = SpduType.refuse.si then parseRefuse data { type := .refuse }
    else .error ("session: unknown SPDU type 0x" ++ hex02 si)
  | _ => .error ("session: SPDU too short (" ++ toString data.length ++ " bytes)")

/-- A DATA SPDU gives its payload back. -/
theorem parse_encodeData (userData : Octets) :
    parse (encodeData userData) = .ok { type := .data, userData := userData } := by
  have long : ¬ (dataSpduHeader ++ userData).length < 4 := by simp [dataSpduHeader]
  have header : (dataSpduHeader ++ userData).take 4 = dataSpduHeader := rfl
  have payload : (dataSpduHeader ++ userData).drop 4 = userData := rfl
  change parseData (dataSpduHeader ++ userData) { type := .data } = _
  rw [parseData, if_neg long, if_neg (not_not_intro header), payload]

/-! ## Parameters -/

theorem decodePGILength_appendLI {length : Nat} (fits : length ≤ maxLI) (rest : Octets) :
    decodePGILength (appendLI length ++ rest) = .ok (length, (appendLI length).length) := by
  unfold appendLI
  by_cases short : length < 0xff
  · have value : (UInt8.ofNat length).toNat = length := by
      rw [UInt8.toNat_ofNat']
      omega
    have lead : UInt8.ofNat length ≠ 0xff := by
      intro same
      rw [same] at value
      exact absurd value (by change 255 ≠ length; omega)
    rw [if_pos short]
    simp only [List.cons_append, List.nil_append, decodePGILength, if_pos lead, value,
      List.length_singleton]
  · have two : (beOctets 2 length).length = 2 := length_beOctets 2 length
    have whole : beNat (beOctets 2 length) = length :=
      beNat_beOctets_of_lt (by unfold maxLI at fits; omega)
    rw [if_neg short, Nat.min_eq_left fits]
    simp only [List.cons_append, decodePGILength, ne_eq, not_true_eq_false, if_false]
    rw [if_neg (by rw [List.length_append]; omega), List.take_left' two, whole, List.length_cons,
      two]

theorem length_appendPGI (tag : UInt8) (content : Octets) :
    (appendPGI tag content).length = 1 + (appendLI content.length).length + content.length := by
  simp only [appendPGI, List.cons_append, List.length_cons, List.length_append]
  omega

theorem length_appendLI_pos (length : Nat) : 0 < (appendLI length).length := by
  unfold appendLI
  split <;> simp

/-- A parameter written anywhere in an SPDU is read back there. -/
theorem parseParameter_appendPGI (store : UInt8 → Octets → ParsedSpdu → ParsedSpdu) (tag : UInt8)
    {content : Octets} (fits : content.length ≤ maxLI) (front rest : Octets) (result : ParsedSpdu) :
    let data := front ++ appendPGI tag content ++ rest
    parseParameter data data.length store result front.length =
      .ok (.next (store tag content result) (front.length + (appendPGI tag content).length)) := by
  intro data
  have size := length_appendPGI tag content
  have positive := length_appendLI_pos content.length
  have total : data.length = front.length + (appendPGI tag content).length + rest.length := by
    simp only [data, List.length_append]
  have here : data.getD front.length 0 = tag := by
    simp [data, appendPGI]
  have after : data.drop (front.length + 1) =
      appendLI content.length ++ (content ++ rest) := by
    simp only [data, List.append_assoc, List.drop_append]
    simp [appendPGI]
  have body : data.drop (front.length + 1 + (appendLI content.length).length) =
      content ++ rest := by
    rw [← List.drop_drop, after, List.drop_left' rfl]
  unfold parseParameter
  rw [if_neg (by omega)]
  simp only [here, after, decodePGILength_appendLI fits, body, List.take_left']
  rw [if_neg (by omega), size]
  congr 2
  omega

/-! ## Connecting -/

/-- The parameters of a CONNECT or ACCEPT. -/
def connectRecords (calling called userData : Octets) : List (UInt8 × Octets) :=
  [(pgiConnAcceptItem, [piProtocolOpts, 0x01, 0x00, piVersion, 0x01, 0x02]),
    (pgiSessionUserReq, [0x00, 0x02])] ++
  (if calling.length > 0 then [(pgiCallingSelector, calling)] else []) ++
  (if called.length > 0 then [(pgiCalledSelector, called)] else []) ++
  (if userData.length > 0 then [(pgiUserData, userData)] else [])

section Connecting

variable {calling called userData data : Octets}

theorem encodeConnectAccept_eq (si : UInt8) :
    encodeConnectAccept si calling called userData =
      encodeSPDU si ((connectRecords calling called userData).flatMap fun record =>
        appendPGI record.1 record.2) := by
  have requirements : [pgiSessionUserReq, 0x02, 0x00, 0x02] =
      appendPGI pgiSessionUserReq [0x00, 0x02] := by decide
  simp only [encodeConnectAccept, requirements, connectRecords, List.flatMap_append]
  congr 1
  split_ifs <;> simp

theorem foldl_connectRecords (type : SpduType) :
    (connectRecords calling called userData).foldl
        (fun result record => storeConnectAccept record.1 record.2 result) { type := type } =
      { type := type, callingSelector := calling, calledSelector := called,
        userData := userData } := by
  -- a parameter that is left out has its zero value
  cases calling <;> cases called <;> cases userData <;>
    simp [connectRecords, storeConnectAccept, pgiConnAcceptItem, pgiSessionUserReq,
      pgiCallingSelector, pgiCalledSelector, pgiUserData]

/-- Parameters that were written are stored one after another. -/
theorem parseConnectAccept_records (si : UInt8) (result : ParsedSpdu)
    {records : List (UInt8 × Octets)}
    (fits : (records.flatMap fun record => appendPGI record.1 record.2).length ≤ maxLI) :
    parseConnectAccept (si :: appendLI (records.flatMap fun record =>
        appendPGI record.1 record.2).length ++
        records.flatMap fun record => appendPGI record.1 record.2) result =
      .ok (records.foldl (fun result record => storeConnectAccept record.1 record.2 result)
        result) := by
  have each : ∀ record ∈ records, record.2.length ≤ maxLI := fun record member => by
    have whole := length_le_flatMap member fun record => appendPGI record.1 record.2
    have size := length_appendPGI record.1 record.2
    omega
  have header := decodePGILength_appendLI fits
    (records.flatMap fun record => appendPGI record.1 record.2)
  have loop := offsetLoop_items (fun record => appendPGI record.1 record.2)
    (fun result record => storeConnectAccept record.1 record.2 result)
    (fun data => parseParameter data data.length storeConnectAccept)
    (fun _ rest => ∀ record ∈ rest, record.2.length ≤ maxLI)
    (fun front record rest result small => ?_) records
    (si :: appendLI (records.flatMap fun record => appendPGI record.1 record.2).length) result each
  · generalize (records.flatMap fun record => appendPGI record.1 record.2) = params at *
    have total : (si :: appendLI params.length ++ params).length =
        1 + (appendLI params.length).length + params.length := by
      simp only [List.cons_append, List.length_cons, List.length_append]
      omega
    have start : (si :: appendLI params.length).length = 1 + (appendLI params.length).length := by
      rw [List.length_cons, Nat.add_comm]
    have behind : (si :: appendLI params.length ++ params).drop 1 =
        appendLI params.length ++ params := rfl
    rw [total, start] at loop
    simp only [parseConnectAccept, behind, header, total, lt_irrefl, if_false, loop, ne_eq,
      not_true_eq_false]
  · obtain ⟨first, others⟩ := List.forall_mem_cons.mp small
    refine ⟨parseParameter_appendPGI storeConnectAccept record.1 first front _ result, ?_, others⟩
    simp [appendPGI]

variable {si : UInt8}

theorem encodeConnectAccept_eq_cons
    (encoded : encodeConnectAccept si calling called userData = .ok data) :
    ∃ second rest, data = si :: second :: rest := by
  rw [encodeConnectAccept_eq, encodeSPDU] at encoded
  split at encoded
  · cases encoded
  cases encoded
  obtain ⟨second, rest, shape⟩ := List.exists_cons_of_length_pos (length_appendLI_pos
    ((connectRecords calling called userData).flatMap fun record =>
      appendPGI record.1 record.2).length)
  exact ⟨second, _, by rw [shape]; rfl⟩

/-- What a CONNECT or ACCEPT carries is read back from it. -/
theorem parseConnectAccept_encode (type : SpduType)
    (encoded : encodeConnectAccept si calling called userData = .ok data) :
    parseConnectAccept data { type := type } =
      .ok { type := type, callingSelector := calling, calledSelector := called,
            userData := userData } := by
  rw [encodeConnectAccept_eq, encodeSPDU] at encoded
  split at encoded
  · cases encoded
  rename_i fits
  cases encoded
  rw [parseConnectAccept_records si _ (Nat.not_lt.mp fits), foldl_connectRecords]

/-- The user data of an SPDU that could be encoded is shorter than its length field allows. -/
theorem length_userData_le (encoded : encodeConnectAccept si calling called userData = .ok data) :
    userData.length ≤ maxLI := by
  rw [encodeConnectAccept_eq, encodeSPDU] at encoded
  split at encoded
  · cases encoded
  rename_i fits
  by_cases filled : userData.length > 0
  · have member : (pgiUserData, userData) ∈ connectRecords calling called userData := by
      simp [connectRecords, filled]
    have whole := length_le_flatMap member fun record => appendPGI record.1 record.2
    have size := length_appendPGI pgiUserData userData
    dsimp only at whole
    omega
  · omega

theorem parse_encodeConnect {p : ConnectParams} (encoded : encodeConnect p userData = .ok data) :
    parse data =
      .ok { type := .connect, callingSelector := p.callingSelector,
            calledSelector := p.calledSelector, userData := userData } := by
  have parsed := parseConnectAccept_encode .connect encoded
  obtain ⟨second, rest, shape⟩ := encodeConnectAccept_eq_cons encoded
  rw [← parsed, shape]
  rfl

theorem parse_encodeAccept {p : ConnectParams} (encoded : encodeAccept p userData = .ok data) :
    parse data =
      .ok { type := .accept, callingSelector := p.callingSelector,
            calledSelector := p.calledSelector, userData := userData } := by
  have parsed := parseConnectAccept_encode .accept encoded
  obtain ⟨second, rest, shape⟩ := encodeConnectAccept_eq_cons encoded
  rw [← parsed, shape]
  rfl

end Connecting

end GoMms.Session
