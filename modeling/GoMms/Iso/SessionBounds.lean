import GoMms.Foundation.Checked
import GoMms.Iso.Session

/-!
# Session parameters stay inside their SPDU

The loops of `parseConnectAccept` and `parseSimpleWithUserData` check a parameter against the end
of the buffer only. The test behind the loop makes up for it: an SPDU is accepted exactly if its
parameters tile the region that its length field declares (`Tiles`), so no value reaches past the
SPDU and no octet behind it matters. With every index and slice expression checked, the parser
causes no fault on any input.
-/

namespace GoMms.Session

open Octets Berutil

/-! ## Parameters -/

/-- A parameter: its identifier and where its value stands. -/
structure Parameter where
  pgi : UInt8
  start : Nat
  length : Nat
  deriving DecidableEq, Repr

def Parameter.value (data : Octets) (parameter : Parameter) : Octets :=
  (data.drop parameter.start).take parameter.length

/-- The parameters stand one behind the other from an offset up to `stop`, each as an identifier,
a length field and a value. -/
inductive Tiles (data : Octets) (stop : Nat) : Nat → List Parameter → Prop
  | nil : Tiles data stop stop []
  | cons {offset length size : Nat} {pgi : UInt8} {parameters : List Parameter}
      (identifier : data[offset]? = some pgi)
      (sized : decodePGILength (data.drop (offset + 1)) = .ok (length, size))
      (rest : Tiles data stop (offset + 1 + size + length) parameters) :
      Tiles data stop offset (⟨pgi, offset + 1 + size, length⟩ :: parameters)

variable {data : Octets} {length size : Nat}

theorem decodePGILength_ok (ok : decodePGILength data = .ok (length, size)) :
    1 ≤ size ∧ size ≤ data.length := by
  cases data with
  | nil => cases ok
  | cons lead rest =>
    simp only [decodePGILength] at ok
    split_ifs at ok with short long
    · cases ok
      exact ⟨le_rfl, by simp⟩
    · cases ok
      rw [List.length_cons]
      omega

/-- The length field is read from the octets it occupies. -/
theorem decodePGILength_congr {other : Octets} (ok : decodePGILength data = .ok (length, size))
    (same : other.take size = data.take size) : decodePGILength other = .ok (length, size) := by
  cases data with
  | nil => cases ok
  | cons lead rest =>
    simp only [decodePGILength] at ok
    split_ifs at ok with short long
    · cases ok
      cases other with
      | nil => cases same
      | cons first others =>
        rw [List.take_succ_cons, List.take_succ_cons, List.cons.injEq] at same
        rw [same.1, decodePGILength, if_pos short]
    · cases ok
      cases other with
      | nil => cases same
      | cons first others =>
        rw [List.take_succ_cons, List.take_succ_cons, List.cons.injEq] at same
        have enough : ¬others.length < 2 := by
          have sizes := congrArg List.length same.2
          rw [List.length_take, List.length_take] at sizes
          omega
        rw [same.1, decodePGILength, if_neg short, if_neg enough, same.2]

namespace Tiles

variable {data other : Octets} {stop offset : Nat} {parameters : List Parameter}

theorem offset_le (tiles : Tiles data stop offset parameters) : offset ≤ stop := by
  induction tiles with
  | nil => exact le_rfl
  | cons _ _ _ ih => omega

/-- Every value lies between the offset and the end. -/
theorem inside (tiles : Tiles data stop offset parameters) :
    ∀ parameter ∈ parameters,
      offset ≤ parameter.start ∧ parameter.start + parameter.length ≤ stop := by
  induction tiles with
  | nil => exact fun _ none => absurd none List.not_mem_nil
  | cons _ _ rest ih =>
    have last := rest.offset_le
    refine List.forall_mem_cons.mpr ⟨⟨by dsimp only; omega, last⟩, fun parameter member => ?_⟩
    have later := ih parameter member
    exact ⟨by omega, later.2⟩

/-- Data that agree up to the end have the same parameters. -/
theorem congr (same : other.take stop = data.take stop)
    (tiles : Tiles data stop offset parameters) : Tiles other stop offset parameters := by
  induction tiles with
  | nil => exact .nil
  | @cons offset length size pgi parameters identifier sized rest ih =>
    have last := rest.offset_le
    have field := (decodePGILength_ok sized).1
    refine .cons ?_ (decodePGILength_congr sized ?_) ih
    · have here := congrArg (fun octets => octets[offset]?) same
      simp only [List.getElem?_take] at here
      rw [if_pos (by omega), if_pos (by omega)] at here
      rw [here, identifier]
    · have there := congrArg (fun octets => (octets.drop (offset + 1)).take size) same
      simp only [List.drop_take, List.take_take] at there
      rwa [Nat.min_eq_left (by omega)] at there

/-- Values inside the region are the same in data that agree on it. -/
theorem value_congr (same : other.take stop = data.take stop)
    (tiles : Tiles data stop offset parameters) :
    ∀ parameter ∈ parameters, parameter.value other = parameter.value data := by
  intro parameter member
  have within := (tiles.inside parameter member).2
  have here := congrArg (fun octets => (octets.drop parameter.start).take parameter.length) same
  simp only [List.drop_take, List.take_take] at here
  rwa [Nat.min_eq_left (by omega)] at here

end Tiles

/-! ## The loop -/

section Loop

variable {data : Octets} {stop offset : Nat} {store : UInt8 → Octets → ParsedSpdu → ParsedSpdu}
  {result final : ParsedSpdu}

/-- Store the values of the parameters. -/
def storeAll (data : Octets) (store : UInt8 → Octets → ParsedSpdu → ParsedSpdu)
    (parameters : List Parameter) (result : ParsedSpdu) : ParsedSpdu :=
  parameters.foldl (fun result parameter => store parameter.pgi (parameter.value data) result)
    result

variable {next : ParsedSpdu} {after : Nat}

/-- What a pass that continues has read. -/
theorem parseParameter_next
    (pass : parseParameter data stop store result offset = .ok (.next next after)) :
    offset + 2 ≤ stop ∧ ∃ length size,
      decodePGILength (data.drop (offset + 1)) = .ok (length, size) ∧
      after = offset + 1 + size + length ∧ after ≤ data.length ∧
      next = store (data.getD offset 0) ((data.drop (offset + 1 + size)).take length) result := by
  unfold parseParameter at pass
  split_ifs at pass with tooShort
  · cases pass
  dsimp only at pass
  split at pass
  · cases pass
  rename_i length size sized
  split_ifs at pass with past
  cases pass
  exact ⟨by omega, length, size, sized, rfl, by omega, rfl⟩

theorem parseParameter_stop
    (pass : parseParameter data stop store result offset = .ok (.stop next after)) :
    after = offset := by
  unfold parseParameter at pass
  split_ifs at pass with tooShort
  · cases pass
    rfl
  · dsimp only at pass
    split at pass
    · cases pass
    · split_ifs at pass
      cases pass

/-- The loop ends at the end of the region exactly if the parameters tile it. -/
theorem offsetLoop_parameters_iff (inside : stop ≤ data.length) :
    offsetLoop stop (parseParameter data stop store) result offset = .ok (final, stop) ↔
      ∃ parameters, Tiles data stop offset parameters ∧
        final = storeAll data store parameters result := by
  constructor
  · intro done
    refine offsetLoop_rec (fun _ => ⟨[], .nil, rfl⟩) (fun _ _ below pass => ?_) ?_ done
    · have stuck := parseParameter_stop pass
      omega
    · rintro _ offset _ _ below pass _ ⟨parameters, tiles, rfl⟩
      obtain ⟨-, length, size, sized, rfl, -, rfl⟩ := parseParameter_next pass
      have here : data[offset]? = some (data.getD offset 0) := by
        rw [List.getD_eq_getElem?_getD, List.getElem?_eq_getElem (by omega)]
        rfl
      exact ⟨_ :: parameters, .cons here sized tiles, rfl⟩
  · rintro ⟨parameters, tiles, rfl⟩
    induction tiles generalizing result with
    | nil => exact offsetLoop_done le_rfl
    | @cons offset length size pgi parameters identifier sized rest ih =>
      have last := rest.offset_le
      have field := (decodePGILength_ok sized).1
      have here : data.getD offset 0 = pgi := by
        rw [List.getD_eq_getElem?_getD, identifier]
        rfl
      have pass : parseParameter data stop store result offset =
          .ok (.next (store pgi ((data.drop (offset + 1 + size)).take length) result)
            (offset + 1 + size + length)) := by
        unfold parseParameter
        rw [if_neg (by omega)]
        simp only [sized, here]
        exact if_neg (by omega)
      rw [offsetLoop_next (by omega) pass (by omega), ih]
      rfl

end Loop

/-! ## Accepted SPDUs -/

section Accepted

variable {data other : Octets} {store : UInt8 → Octets → ParsedSpdu → ParsedSpdu}
  {result spdu : ParsedSpdu}

/-- The length field declares a region inside the data that the parameters tile, and their values
are stored. -/
def Accepts (store : UInt8 → Octets → ParsedSpdu → ParsedSpdu) (data : Octets)
    (result spdu : ParsedSpdu) : Prop :=
  ∃ li liLen parameters, decodePGILength (data.drop 1) = .ok (li, liLen) ∧
    1 + liLen + li ≤ data.length ∧ Tiles data (1 + liLen + li) (1 + liLen) parameters ∧
    spdu = storeAll data store parameters result

/-- Acceptance, in terms of the loop. -/
theorem accepts_iff {li liLen : Nat} (declared : decodePGILength (data.drop 1) = .ok (li, liLen)) :
    Accepts store data result spdu ↔ 1 + liLen + li ≤ data.length ∧
      offsetLoop (1 + liLen + li) (parseParameter data (1 + liLen + li) store) result (1 + liLen) =
        .ok (spdu, 1 + liLen + li) := by
  constructor
  · rintro ⟨li', liLen', parameters, same, inside, tiles, rfl⟩
    rw [declared] at same
    cases same
    exact ⟨inside, (offsetLoop_parameters_iff inside).mpr ⟨parameters, tiles, rfl⟩⟩
  · rintro ⟨inside, ended⟩
    obtain ⟨parameters, tiles, stored⟩ := (offsetLoop_parameters_iff inside).mp ended
    exact ⟨li, liLen, parameters, declared, inside, tiles, stored⟩

theorem not_accepts {text : String} (undeclared : decodePGILength (data.drop 1) = .error text) :
    ¬Accepts store data result spdu := by
  rintro ⟨li, liLen, parameters, declared, -⟩
  rw [undeclared] at declared
  cases declared

/-- The test behind the loop: its end must be the end of the region. -/
theorem ended_iff {loop : Except String (ParsedSpdu × Nat)} {stop : Nat}
    {trailing : ParsedSpdu → Nat → String} :
    ((match loop with
      | .error text => .error text
      | .ok (result, offset) =>
        if offset ≠ stop then .error (trailing result offset) else .ok result :
        Except String ParsedSpdu) = .ok spdu) ↔ loop = .ok (spdu, stop) := by
  cases loop with
  | error text => simp
  | ok ended =>
    obtain ⟨final, offset⟩ := ended
    by_cases whole : offset = stop
    · simp [whole]
    · simp [whole]

theorem parseConnectAccept_iff :
    parseConnectAccept data result = .ok spdu ↔ Accepts storeConnectAccept data result spdu := by
  cases declared : decodePGILength (data.drop 1) with
  | error text =>
    rw [parseConnectAccept, declared]
    exact iff_of_false (by rintro ⟨⟩) (not_accepts declared)
  | ok field =>
    rw [accepts_iff declared, parseConnectAccept, declared]
    dsimp only
    by_cases truncated : data.length < 1 + field.2 + field.1
    · rw [if_pos truncated]
      exact iff_of_false (by rintro ⟨⟩) fun accepted => Nat.not_lt.mpr accepted.1 truncated
    · rw [if_neg truncated, and_iff_right (Nat.not_lt.mp truncated)]
      exact ended_iff

theorem parseSimpleWithUserData_iff :
    parseSimpleWithUserData data result = .ok spdu ↔ Accepts storeUserData data result spdu := by
  cases declared : decodePGILength (data.drop 1) with
  | error text =>
    rw [parseSimpleWithUserData, declared]
    exact iff_of_false (by rintro ⟨⟩) (not_accepts declared)
  | ok field =>
    rw [accepts_iff declared, parseSimpleWithUserData, declared]
    dsimp only
    by_cases truncated : data.length < 1 + field.2 + field.1
    · rw [if_pos truncated]
      exact iff_of_false (by rintro ⟨⟩) fun accepted => Nat.not_lt.mpr accepted.1 truncated
    · rw [if_neg truncated, and_iff_right (Nat.not_lt.mp truncated)]
      exact ended_iff

/-- The field is absent or the value of a parameter with its identifier. -/
def Carried (data : Octets) (parameters : List Parameter) (pgi : UInt8) (field : Octets) : Prop :=
  field = [] ∨ ∃ parameter ∈ parameters, parameter.pgi = pgi ∧ field = parameter.value data

/-- The fields of the result are carried by the parameters. -/
structure AllCarried (data : Octets) (parameters : List Parameter) (spdu : ParsedSpdu) :
    Prop where
  calling : Carried data parameters pgiCallingSelector spdu.callingSelector
  called : Carried data parameters pgiCalledSelector spdu.calledSelector
  userData : Carried data parameters pgiUserData spdu.userData

variable {parameters : List Parameter}

/-- Both ways to store a value keep what is carried. -/
theorem allCarried_store (stores : store = storeConnectAccept ∨ store = storeUserData)
    (carried : AllCarried data parameters result) {parameter : Parameter}
    (member : parameter ∈ parameters) :
    AllCarried data parameters (store parameter.pgi (parameter.value data) result) := by
  rcases stores with rfl | rfl
  · unfold storeConnectAccept
    split_ifs with calling called user
    · exact { carried with calling := .inr ⟨parameter, member, calling, rfl⟩ }
    · exact { carried with called := .inr ⟨parameter, member, called, rfl⟩ }
    · exact { carried with userData := .inr ⟨parameter, member, user, rfl⟩ }
    · exact carried
  · unfold storeUserData
    split_ifs with user
    · exact { carried with userData := .inr ⟨parameter, member, user, rfl⟩ }
    · exact carried

theorem allCarried_storeAll (stores : store = storeConnectAccept ∨ store = storeUserData)
    {all : List Parameter} (known : ∀ parameter ∈ parameters, parameter ∈ all)
    (carried : AllCarried data all result) :
    AllCarried data all (storeAll data store parameters result) := by
  induction parameters generalizing result with
  | nil => exact carried
  | cons parameter parameters ih =>
    obtain ⟨first, others⟩ := List.forall_mem_cons.mp known
    exact ih others (allCarried_store stores carried first)

/-- Acceptance depends on the declared region only. -/
theorem Accepts.congr (accepted : Accepts store data result spdu) :
    ∃ li liLen, decodePGILength (data.drop 1) = .ok (li, liLen) ∧
      ∀ other : Octets, other.take (1 + liLen + li) = data.take (1 + liLen + li) →
        Accepts store other result spdu := by
  obtain ⟨li, liLen, parameters, declared, inside, tiles, rfl⟩ := accepted
  refine ⟨li, liLen, declared, fun other same => ⟨li, liLen, parameters, ?_, ?_, ?_, ?_⟩⟩
  · refine decodePGILength_congr declared ?_
    have there := congrArg (fun octets => (octets.drop 1).take liLen) same
    simp only [List.drop_take, List.take_take] at there
    rwa [Nat.min_eq_left (by omega)] at there
  · have sizes := congrArg List.length same
    rw [List.length_take, List.length_take] at sizes
    omega
  · exact tiles.congr same
  · have values := tiles.value_congr same
    unfold storeAll
    exact List.foldl_ext _ _ _ fun result parameter member => by rw [values parameter member]

end Accepted

/-! ## Checked parsing -/

def decodePGILengthChecked (data : Octets) : Except Fault (Except String (Nat × Nat)) :=
  if data.length = 0 then .ok (.error "missing length byte")
  else do
    let lead ← index data 0
    if lead ≠ 0xff then return .ok (lead.toNat, 1)
    else if data.length < 3 then return .error "truncated extended length"
    else do
      let octets ← slice data 1 3
      return .ok (beNat octets, 3)

/-- The value is sliced for every parameter; the code does so for the identifiers it knows. -/
def parseParameterChecked (data : Octets) (stop : Nat)
    (store : UInt8 → Octets → ParsedSpdu → ParsedSpdu) (result : ParsedSpdu) (offset : Nat) :
    Except Fault (Except String (LoopStep ParsedSpdu)) :=
  if offset + 2 > stop then .ok (.ok (.stop result offset))
  else do
    let pgi ← index data offset
    let rest ← sliceFrom data (offset + 1)
    match ← decodePGILengthChecked rest with
    | .error text =>
      return .error ("session: " ++ result.type.string ++ " SPDU parameter length: " ++ text)
    | .ok (pgiLen, lenBytes) =>
      let start := offset + 1 + lenBytes
      if start + pgiLen > data.length then
        return .error ("session: " ++ result.type.string ++ " SPDU parameter 0x" ++ hex02 pgi ++
          " truncated")
      else do
        let value ← slice data start (start + pgiLen)
        return .ok (.next (store pgi value result) (start + pgiLen))

def parseConnectAcceptChecked (data : Octets) (result : ParsedSpdu) :
    Except Fault (Except String ParsedSpdu) := do
  let rest ← sliceFrom data 1
  match ← decodePGILengthChecked rest with
  | .error text => return .error ("session: " ++ result.type.string ++ " SPDU length: " ++ text)
  | .ok (li, liLen) =>
    let headerEnd := 1 + liLen + li
    if data.length < headerEnd then
      return .error ("session: " ++ result.type.string ++ " SPDU truncated (need " ++
        toString headerEnd ++ ", have " ++ toString data.length ++ ")")
    else
      match ← checkedLoop headerEnd (parseParameterChecked data headerEnd storeConnectAccept)
          result (1 + liLen) with
      | .error text => return .error text
      | .ok (result, offset) =>
        if offset ≠ headerEnd then
          return .error ("session: " ++ result.type.string ++ " SPDU " ++
            toString ((headerEnd : Int) - offset) ++ " trailing bytes in header")
        else return .ok result

def parseSimpleWithUserDataChecked (data : Octets) (result : ParsedSpdu) :
    Except Fault (Except String ParsedSpdu) := do
  let rest ← sliceFrom data 1
  match ← decodePGILengthChecked rest with
  | .error text => return .error ("session: " ++ result.type.string ++ " SPDU length: " ++ text)
  | .ok (li, liLen) =>
    let stop := 1 + liLen + li
    if data.length < stop then
      return .error ("session: " ++ result.type.string ++ " SPDU truncated")
    else
      match ← checkedLoop stop (parseParameterChecked data stop storeUserData) result
          (1 + liLen) with
      | .error text => return .error text
      | .ok (result, offset) =>
        if offset ≠ stop then
          return .error ("session: " ++ result.type.string ++ " SPDU " ++
            toString ((stop : Int) - offset) ++ " trailing bytes")
        else return .ok result

def parseDataChecked (data : Octets) (result : ParsedSpdu) :
    Except Fault (Except String ParsedSpdu) :=
  if data.length < 4 then
    .ok (.error ("session: DATA SPDU too short (" ++ toString data.length ++ " bytes)"))
  else do
    let first ← index data 0
    let second ← index data 1
    let third ← index data 2
    let fourth ← index data 3
    if [first, second, third, fourth] ≠ dataSpduHeader then
      let header ← slice data 0 4
      return .error ("session: DATA SPDU invalid header " ++ String.join (header.map hex02) ++
        ", expected 01000100")
    else do
      let userData ← sliceFrom data 4
      return .ok { result with userData := userData }

def parseRefuseChecked (data : Octets) (result : ParsedSpdu) :
    Except Fault (Except String ParsedSpdu) := do
  let rest ← sliceFrom data 1
  match ← decodePGILengthChecked rest with
  | .error text => return .error ("session: REFUSE SPDU length: " ++ text)
  | .ok (li, liLen) =>
    if data.length < 1 + liLen + li then return .error "session: REFUSE SPDU truncated"
    else return .ok result

/-- `Parse` with every index and slice expression checked. -/
def parseChecked (data : Octets) : Except Fault (Except String ParsedSpdu) :=
  if data.length < 2 then
    .ok (.error ("session: SPDU too short (" ++ toString data.length ++ " bytes)"))
  else do
    let si ← index data 0
    if si = SpduType.data.si then parseDataChecked data { type := .data }
    else if si = SpduType.connect.si then parseConnectAcceptChecked data { type := .connect }
    else if si = SpduType.accept.si then parseConnectAcceptChecked data { type := .accept }
    else if si = SpduType.finish.si then
      parseSimpleWithUserDataChecked data { type := .finish }
    else if si = SpduType.disconnect.si then
      parseSimpleWithUserDataChecked data { type := .disconnect }
    else if si = SpduType.abort.si then parseSimpleWithUserDataChecked data { type := .abort }
    else if si = SpduType.refuse.si then parseRefuseChecked data { type := .refuse }
    else return .error ("session: unknown SPDU type 0x" ++ hex02 si)

section Checked

variable {data : Octets} {stop : Nat} {store : UInt8 → Octets → ParsedSpdu → ParsedSpdu}

theorem decodePGILengthChecked_eq (data : Octets) :
    decodePGILengthChecked data = .ok (decodePGILength data) := by
  cases data with
  | nil => rfl
  | cons lead rest =>
    have first : index (lead :: rest) 0 = .ok lead := rfl
    have filled : (lead :: rest).length ≠ 0 := by simp
    rw [decodePGILengthChecked, if_neg filled, first, ok_bind, decodePGILength]
    by_cases short : lead ≠ 0xff
    · rw [if_pos short, if_pos short]
      rfl
    · by_cases truncated : rest.length < 2
      · rw [if_neg short, if_neg short, if_pos truncated, if_pos (by rw [List.length_cons]; omega)]
        rfl
      · have inside : 3 ≤ (lead :: rest).length := by
          rw [List.length_cons]
          omega
        rw [if_neg short, if_neg short, if_neg truncated, if_neg (by omega),
          slice_eq (by decide) inside]
        rfl

/-- A pass inside the data causes no fault. -/
theorem parseParameterChecked_eq (inside : stop ≤ data.length) (result : ParsedSpdu)
    (offset : Nat) :
    parseParameterChecked data stop store result offset =
      .ok (parseParameter data stop store result offset) := by
  unfold parseParameterChecked parseParameter
  by_cases tooShort : offset + 2 > stop
  · rw [if_pos tooShort, if_pos tooShort]
  · rw [if_neg tooShort, if_neg tooShort, index_eq_getD 0 (by omega), ok_bind,
      sliceFrom_eq (by omega), ok_bind, decodePGILengthChecked_eq, ok_bind]
    cases decodePGILength (data.drop (offset + 1)) with
    | error text => rfl
    | ok field =>
      dsimp only
      by_cases truncated : offset + 1 + field.2 + field.1 > data.length
      · rw [if_pos truncated, if_pos truncated]
        rfl
      · rw [if_neg truncated, if_neg truncated, slice_eq (by omega) (by omega), ok_bind,
          Nat.add_sub_cancel_left]
        rfl

/-- The loop causes no fault, and every pass moves the offset. -/
theorem checkedLoop_parameters_eq (inside : stop ≤ data.length) (result : ParsedSpdu)
    (offset : Nat) :
    checkedLoop stop (parseParameterChecked data stop store) result offset =
      .ok (offsetLoop stop (parseParameter data stop store) result offset) := by
  refine checkedLoop_eq (fun result offset _ => parseParameterChecked_eq inside result offset)
    ?_ result offset
  intro result offset next after _ pass
  obtain ⟨-, length, size, sized, rfl, -⟩ := parseParameter_next pass
  have field := (decodePGILength_ok sized).1
  omega

theorem parseConnectAcceptChecked_eq (filled : 1 ≤ data.length) (result : ParsedSpdu) :
    parseConnectAcceptChecked data result = .ok (parseConnectAccept data result) := by
  unfold parseConnectAcceptChecked parseConnectAccept
  rw [sliceFrom_eq filled, ok_bind, decodePGILengthChecked_eq, ok_bind]
  cases decodePGILength (data.drop 1) with
  | error text => rfl
  | ok field =>
    dsimp only
    by_cases truncated : data.length < 1 + field.2 + field.1
    · rw [if_pos truncated, if_pos truncated]
      rfl
    · rw [if_neg truncated, if_neg truncated,
        checkedLoop_parameters_eq (Nat.not_lt.mp truncated), ok_bind]
      cases offsetLoop (1 + field.2 + field.1)
        (parseParameter data (1 + field.2 + field.1) storeConnectAccept) result
        (1 + field.2) with
      | error text => rfl
      | ok ended =>
        dsimp only
        split_ifs with whole
        · rfl
        · rfl

theorem parseSimpleWithUserDataChecked_eq (filled : 1 ≤ data.length) (result : ParsedSpdu) :
    parseSimpleWithUserDataChecked data result = .ok (parseSimpleWithUserData data result) := by
  unfold parseSimpleWithUserDataChecked parseSimpleWithUserData
  rw [sliceFrom_eq filled, ok_bind, decodePGILengthChecked_eq, ok_bind]
  cases decodePGILength (data.drop 1) with
  | error text => rfl
  | ok field =>
    dsimp only
    by_cases truncated : data.length < 1 + field.2 + field.1
    · rw [if_pos truncated, if_pos truncated]
      rfl
    · rw [if_neg truncated, if_neg truncated,
        checkedLoop_parameters_eq (Nat.not_lt.mp truncated), ok_bind]
      cases offsetLoop (1 + field.2 + field.1)
        (parseParameter data (1 + field.2 + field.1) storeUserData) result (1 + field.2) with
      | error text => rfl
      | ok ended =>
        dsimp only
        split_ifs with whole
        · rfl
        · rfl

theorem parseDataChecked_eq (data : Octets) (result : ParsedSpdu) :
    parseDataChecked data result = .ok (parseData data result) := by
  unfold parseDataChecked parseData
  by_cases short : data.length < 4
  · rw [if_pos short, if_pos short]
  · match data, short with
    | first :: second :: third :: fourth :: rest, short =>
      rw [if_neg short, if_neg short]
      by_cases header : [first, second, third, fourth] = dataSpduHeader
      · refine Eq.trans ?_ (congrArg Except.ok (if_neg (not_not_intro header)).symm)
        exact if_neg (not_not_intro header)
      · refine Eq.trans ?_ (congrArg Except.ok (if_pos header).symm)
        exact if_pos header
    | [], short => exact absurd (by decide) short
    | [_], short => exact absurd (by simp) short
    | [_, _], short => exact absurd (by simp) short
    | [_, _, _], short => exact absurd (by simp) short

theorem parseRefuseChecked_eq (filled : 1 ≤ data.length) (result : ParsedSpdu) :
    parseRefuseChecked data result = .ok (parseRefuse data result) := by
  unfold parseRefuseChecked parseRefuse
  rw [sliceFrom_eq filled, ok_bind, decodePGILengthChecked_eq, ok_bind]
  cases decodePGILength (data.drop 1) with
  | error text => rfl
  | ok field =>
    dsimp only
    split_ifs with truncated
    · rfl
    · rfl

theorem parseChecked_eq (data : Octets) : parseChecked data = .ok (parse data) := by
  match data with
  | [] => rfl
  | [_] => rfl
  | si :: second :: rest =>
    have filled : 1 ≤ (si :: second :: rest).length := by simp
    have long : ¬(si :: second :: rest).length < 2 := by simp
    have first : index (si :: second :: rest) 0 = .ok si := rfl
    rw [parseChecked, if_neg long, first, ok_bind]
    unfold parse
    dsimp only
    split_ifs
    · exact parseDataChecked_eq _ _
    · exact parseConnectAcceptChecked_eq filled _
    · exact parseConnectAcceptChecked_eq filled _
    · exact parseSimpleWithUserDataChecked_eq filled _
    · exact parseSimpleWithUserDataChecked_eq filled _
    · exact parseSimpleWithUserDataChecked_eq filled _
    · exact parseRefuseChecked_eq filled _
    · rfl

end Checked

/-! ## The declared region -/

section Region

/-- Which parser an identifier selects: one that accepts a tiled region, or the ones of the DATA
and REFUSE SPDUs. -/
theorem parse_dispatch (si : UInt8) :
    (∃ store type, (store = storeConnectAccept ∨ store = storeUserData) ∧
      ∀ second rest spdu, parse (si :: second :: rest) = .ok spdu ↔
        Accepts store (si :: second :: rest) { type := type } spdu) ∨
    ∀ second rest spdu, parse (si :: second :: rest) = .ok spdu →
      spdu.type = .data ∨ spdu.type = .refuse := by
  unfold parse
  dsimp only
  split_ifs
  · refine .inr fun second rest spdu parsed => .inl ?_
    unfold parseData at parsed
    split_ifs at parsed
    cases parsed
    rfl
  · exact .inl ⟨_, .connect, .inl rfl, fun _ _ _ => parseConnectAccept_iff⟩
  · exact .inl ⟨_, .accept, .inl rfl, fun _ _ _ => parseConnectAccept_iff⟩
  · exact .inl ⟨_, .finish, .inr rfl, fun _ _ _ => parseSimpleWithUserData_iff⟩
  · exact .inl ⟨_, .disconnect, .inr rfl, fun _ _ _ => parseSimpleWithUserData_iff⟩
  · exact .inl ⟨_, .abort, .inr rfl, fun _ _ _ => parseSimpleWithUserData_iff⟩
  · refine .inr fun second rest spdu parsed => .inr ?_
    unfold parseRefuse at parsed
    split at parsed
    · cases parsed
    split_ifs at parsed
    cases parsed
    rfl
  · exact .inr fun second rest spdu parsed => nomatch parsed

/-- Data that agrees with an SPDU on two octets or more has its identifier. -/
theorem cons_of_take_eq {si second : UInt8} {rest other : Octets} {count : Nat} (two : 2 ≤ count)
    (same : other.take count = (si :: second :: rest).take count) :
    ∃ second rest, other = si :: second :: rest := by
  obtain ⟨count, rfl⟩ := Nat.exists_eq_add_of_le' two
  match other, same with
  | [], same => cases same
  | [_], same => cases same
  | first :: second :: rest, same =>
    have head : first = si := (List.cons.inj same).1
    exact ⟨second, rest, by rw [head]⟩

/-- An SPDU with parameters is read from the region its length field declares: the parameters tile
it, the fields of the result are their values, and other data with the same octets up to its end
gives the same result. No input leads to an access outside the data. -/
theorem parse_staysInside :
    (∀ data spdu, parse data = .ok spdu → spdu.type ≠ .data → spdu.type ≠ .refuse →
      ∃ li liLen parameters, decodePGILength (data.drop 1) = .ok (li, liLen) ∧
        1 + liLen + li ≤ data.length ∧
        Tiles data (1 + liLen + li) (1 + liLen) parameters ∧
        (∀ parameter ∈ parameters, 1 + liLen ≤ parameter.start ∧
          parameter.start + parameter.length ≤ 1 + liLen + li) ∧
        AllCarried data parameters spdu ∧
        ∀ other, other.take (1 + liLen + li) = data.take (1 + liLen + li) →
          parse other = .ok spdu) ∧
    ∀ data, parseChecked data = .ok (parse data) := by
  refine ⟨?_, parseChecked_eq⟩
  intro data spdu parsed notData notRefuse
  match data, parsed with
  | si :: second :: rest, parsed =>
    obtain ⟨store, type, stores, dispatch⟩ | others := parse_dispatch si
    · have accepted := (dispatch second rest spdu).mp parsed
      obtain ⟨li, liLen, declared, same⟩ := accepted.congr
      obtain ⟨li', liLen', parameters, declared', inside, tiles, rfl⟩ := accepted
      rw [declared] at declared'
      cases declared'
      have field := (decodePGILength_ok declared).1
      refine ⟨li, liLen, parameters, declared, inside, tiles, tiles.inside, ?_, ?_⟩
      · exact allCarried_storeAll stores (fun _ member => member) ⟨.inl rfl, .inl rfl, .inl rfl⟩
      · intro other agrees
        obtain ⟨second', rest', rfl⟩ := cons_of_take_eq (by omega) agrees
        exact (dispatch second' rest' _).mpr (same _ agrees)
    · rcases others second rest spdu parsed with data | refuse
      · exact absurd data notData
      · exact absurd refuse notRefuse

/-- A FINISH SPDU of one parameter, with an octet behind it. -/
theorem parse_staysInside_finish :
    let data : Octets := [0x09, 0x03, 0xc1, 0x01, 0x61, 0xff]
    parse data = .ok { type := .finish, userData := [0x61] } ∧
      ∃ li liLen parameters, decodePGILength (data.drop 1) = .ok (li, liLen) ∧
        Tiles data (1 + liLen + li) (1 + liLen) parameters ∧
        AllCarried data parameters { type := .finish, userData := [0x61] } := by
  have parsed : parse [0x09, 0x03, 0xc1, 0x01, 0x61, 0xff] =
      .ok { type := .finish, userData := [0x61] } := by decide +kernel
  obtain ⟨li, liLen, parameters, declared, -, tiles, -, carried, -⟩ :=
    parse_staysInside.1 _ _ parsed (by decide) (by decide)
  exact ⟨parsed, li, liLen, parameters, declared, tiles, carried⟩

end Region

end GoMms.Session
