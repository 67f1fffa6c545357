import GoMms.Pdu.AccessRequest

/-!
# Named variable lists on the wire

The requests that define a list, ask for its attributes and delete lists (`namedvarlist.go`), the
server's parsers for them and the responses (`server_helpers.go`). A list that is defined, stored
as it arrived and sent back in a response is the list that was defined.
-/

namespace GoMms.Pdu

open Berutil Codec

def tagServiceDefineNamedVariableList : UInt8 := 0xab
def tagServiceGetNamedVariableListAttrs : UInt8 := 0xac
def tagServiceDeleteNamedVariableList : UInt8 := 0xad

/-! ## The client's requests -/

/-- `MarshalDefineNamedVarListRequest`. `WrapConstructed(0, name)` around the names of the
variables writes what `EncodeTLV(0xa0, name)` writes. -/
def marshalDefineNamedVarListRequest (invokeID : UInt32) (listName : ObjectNameWire)
    (vars : List VariableSpecWire) : Except String Octets :=
  match encodeObjectName listName with
  | .error text => .error ("pdu: define named var list: list name: " ++ text)
  | .ok nameBytes =>
    match encodeVariableSpecs 0 vars with
    | .error text => .error ("pdu: define named var list: " ++ text)
    | .ok varEntries =>
      .ok (marshalConfirmedLegacy invokeID tagServiceDefineNamedVariableList
        (nameBytes ++ encodeTLV 0xa0 varEntries))

def marshalGetNamedVarListAttrsRequest (invokeID : UInt32) (listName : ObjectNameWire) :
    Except String Octets :=
  match encodeObjectName listName with
  | .error text => .error ("pdu: get named var list attrs: " ++ text)
  | .ok payload =>
    .ok (marshalConfirmedLegacy invokeID tagServiceGetNamedVariableListAttrs payload)

/-- The names of a Delete request from number `i` on. -/
def encodeListNames : (i : Nat) → List ObjectNameWire → Except String Octets
  | _, [] => .ok []
  | i, n :: listNames =>
    match encodeObjectName n with
    | .error text => .error ("pdu: delete named var list: name [" ++ toString i ++ "]: " ++ text)
    | .ok encoded =>
      match encodeListNames (i + 1) listNames with
      | .error text => .error text
      | .ok nameEntries => .ok (encoded ++ nameEntries)

def marshalDeleteNamedVarListRequest (invokeID : UInt32) (listNames : List ObjectNameWire) :
    Except String Octets :=
  match encodeListNames 0 listNames with
  | .error text => .error text
  | .ok nameEntries =>
    .ok (marshalConfirmedLegacy invokeID tagServiceDeleteNamedVariableList
      (encodeTLV 0xa1 nameEntries))

/-! ## Parsers -/

/-- `DecodeObjectNameAt`: the name and the octets it takes. -/
def decodeObjectNameAt (data : Octets) (offset : Nat) : Except String (ObjectNameWire × Nat) :=
  match decodeTLVAt data offset with
  | .error text => .error ("decode object name: " ++ text)
  | .ok tlv =>
    match decodeObjectNameFromTLV tlv.tag tlv.content with
    | .error text => .error text
    | .ok name => .ok (name, tlv.consumed)

/-- The alternate access after the name, which ends at `offset`. -/
def decodeAccessFull (data : Octets) (offset : Nat) :
    Except String (List AccessSelectorWire × Nat) :=
  if offset < data.length then
    match decodeTLVAt data offset with
    | .error text => .error ("variableSpec alternateAccess: " ++ text)
    | .ok tlv =>
      if tlv.tag = tagAltAccessWrapper then
        match decodeAlternateAccess tlv.content with
        | .error text => .error ("variableSpec alternateAccess: " ++ text)
        | .ok aa => .ok (aa, offset + tlv.consumed)
      else .error ("pdu: unexpected tag 0x" ++ hex02 tlv.tag ++ " in decodeVariableSpecFull")
  else .ok ([], offset)

def decodeVariableSpecFull (data : Octets) : Except String VariableSpecWire :=
  match decodeTLVAt data 0 with
  | .error text => .error ("variableSpec: " ++ text)
  | .ok tlv =>
    if tlv.tag ≠ 0xa0 then
      .error ("variableSpec: expected name [0] (0xa0), got 0x" ++ hex02 tlv.tag ++
        " (only 'name' supported)")
    else
      match decodeObjectName tlv.content with
      | .error text => .error text
      | .ok name =>
        match decodeAccessFull data tlv.consumed with
        | .error text => .error text
        | .ok (aa, offset) =>
          if offset ≠ data.length then
            .error ("pdu: " ++ toString ((data.length : Int) - offset) ++
              " trailing bytes in variableSpec")
          else .ok ⟨name, aa⟩

/-- One pass of the loops of `decodeVariableList` and `decodeDefineNVLVarList`. -/
def variablePass (data : Octets) (specs : List VariableSpecWire) (offset : Nat) :
    Except String (LoopStep (List VariableSpecWire)) :=
  match decodeTLVAt data offset with
  | .error text => .error ("variable [" ++ toString specs.length ++ "]: " ++ text)
  | .ok tlv =>
    if tlv.tag ≠ tagSequence then
      .error ("variable [" ++ toString specs.length ++ "]: expected SEQUENCE (0x30), got 0x" ++
        hex02 tlv.tag)
    else
      match decodeVariableSpecFull tlv.content with
      | .error text => .error ("variable [" ++ toString specs.length ++ "]: " ++ text)
      | .ok spec => .ok (.next (specs ++ [spec]) (offset + tlv.consumed))

def decodeVariableList (data : Octets) : Except String (List VariableSpecWire) :=
  match offsetLoop data.length (variablePass data) [] 0 with
  | .error text => .error text
  | .ok (specs, _) => .ok specs

def decodeDefineNVLVarList (data : Octets) : Except String (List VariableSpecWire) :=
  decodeVariableList data

structure DefineNVLRequest where
  listName : ObjectNameWire
  vars : List VariableSpecWire
  deriving DecidableEq, Repr

def unmarshalDefineNVLRequest (data : Octets) : Except String DefineNVLRequest :=
  match decodeObjectNameAt data 0 with
  | .error text => .error ("define-nvl request: listName: " ++ text)
  | .ok (listName, offset) =>
    if offset ≥ data.length then .error "define-nvl request: missing listOfVariable"
    else
      match decodeTLVAt data offset with
      | .error text => .error ("define-nvl request: listOfVariable: " ++ text)
      | .ok list =>
        if list.tag ≠ 0xa0 then
          .error ("define-nvl request: expected listOfVariable [0] (0xa0), got 0x" ++
            hex02 list.tag)
        else if offset + list.consumed ≠ data.length then
          .error ("define-nvl request: " ++
            toString ((data.length : Int) - (offset + list.consumed : Nat)) ++
            " trailing bytes")
        else
          match decodeDefineNVLVarList list.content with
          | .error text => .error ("define-nvl request: " ++ text)
          | .ok vars => .ok ⟨listName, vars⟩

/-- `UnmarshalGetNVLAttrsRequest`: the name of the list. -/
def unmarshalGetNVLAttrsRequest (data : Octets) : Except String ObjectNameWire :=
  match decodeObjectNameAt data 0 with
  | .error text => .error ("get-nvl-attrs request: listName: " ++ text)
  | .ok (listName, n) =>
    if n ≠ data.length then
      .error ("get-nvl-attrs request: " ++ toString ((data.length : Int) - n) ++ " trailing bytes")
    else .ok listName

structure DeleteNVLRequest where
  scopeOfDelete : Int64 := 0
  listNames : List ObjectNameWire := []
  domainName : Octets := []
  deriving DecidableEq, Repr

/-- The optional scope at the front of a Delete request, and the offset after it. -/
def decodeScopeOfDelete (data : Octets) : Except String (Int64 × Nat) :=
  if 0 < data.length then
    match decodeTLVAt data 0 with
    | .error text => .error ("delete-nvl request: " ++ text)
    | .ok tlv =>
      if tlv.tag = 0x80 then
        match decodeInteger tlv.content with
        | .error text => .error ("delete-nvl request: scopeOfDelete: " ++ text)
        | .ok scope => .ok (scope, tlv.consumed)
      else .ok (0, 0)
  else .ok (0, 0)

/-- One pass of the loop over the names of a Delete request. -/
def listNamePass (content : Octets) (listNames : List ObjectNameWire) (nameOff : Nat) :
    Except String (LoopStep (List ObjectNameWire)) :=
  match decodeObjectNameAt content nameOff with
  | .error text =>
    .error ("delete-nvl request: name [" ++ toString listNames.length ++ "]: " ++ text)
  | .ok (name, consumed) => .ok (.next (listNames ++ [name]) (nameOff + consumed))

/-- The optional domain at the end of a Delete request, and the offset after it. -/
def decodeDomainName (data : Octets) (offset : Nat) : Except String (Octets × Nat) :=
  if offset < data.length then
    match decodeTLVAt data offset with
    | .error text => .error ("delete-nvl request: domainName: " ++ text)
    | .ok tlv =>
      if tlv.tag = 0x82 then .ok (tlv.content, offset + tlv.consumed) else .ok ([], offset)
  else .ok ([], offset)

def unmarshalDeleteNVLRequest (data : Octets) : Except String DeleteNVLRequest :=
  match decodeScopeOfDelete data with
  | .error text => .error text
  | .ok (scopeOfDelete, offset) =>
    if offset ≥ data.length then .error "delete-nvl request: missing listOfVariableListName"
    else
      match decodeTLVAt data offset with
      | .error text => .error ("delete-nvl request: listOfNames: " ++ text)
      | .ok list =>
        if list.tag ≠ 0xa1 then
          .error ("delete-nvl request: expected [1] (0xa1), got 0x" ++ hex02 list.tag)
        else
          match offsetLoop list.content.length (listNamePass list.content) [] 0 with
          | .error text => .error text
          | .ok (listNames, _) =>
            match decodeDomainName data (offset + list.consumed) with
            | .error text => .error text
            | .ok (domainName, offset) =>
              if offset ≠ data.length then
                .error ("delete-nvl request: " ++
                  toString ((data.length : Int) - offset) ++ " trailing bytes")
              else .ok ⟨scopeOfDelete, listNames, domainName⟩

/-! ## Responses -/

def marshalGetNVLAttrsResponse (deletable : Bool) (vars : List VariableSpecWire) :
    Except String Octets :=
  match encodeVariableSpecs 0 vars with
  | .error text => .error text
  | .ok entries =>
    .ok (encodeTLV 0x80 [if deletable then 0xff else 0x00] ++ encodeTLV 0xa1 entries)

/-- `MarshalDeleteNVLResponse`; the counts of the server are not negative. -/
def marshalDeleteNVLResponse (numberMatched numberDeleted : Nat) : Except String Octets :=
  if numberMatched > 4294967295 ∨ numberDeleted > 4294967295 then
    .error "MarshalDeleteNVLResponse: count exceeds Unsigned32 range"
  else
    .ok (encodeTLV 0x80 (encodeUint32 (UInt32.ofNat numberMatched)) ++
      encodeTLV 0x81 (encodeUint32 (UInt32.ofNat numberDeleted)))

structure NamedVarListAttrsResult where
  deletable : Bool
  vars : List VariableSpecWire
  deriving DecidableEq, Repr

def unmarshalGetNamedVarListAttrsResponse (content : Octets) :
    Except String NamedVarListAttrsResult :=
  if content.length = 0 then .error "pdu: getnamedvarlistattrs response: empty content"
  else
    match decodeTLVAt content 0 with
    | .error text => .error ("pdu: getnamedvarlistattrs response: mmsDeletable: " ++ text)
    | .ok flag =>
      if flag.tag ≠ 0x80 then
        .error ("pdu: getnamedvarlistattrs response: expected [0] (0x80), got 0x" ++ hex02 flag.tag)
      else
        let deletable := decide (flag.content.length = 1) && flag.content.headD 0 != 0
        if flag.consumed ≥ content.length then
          .error "pdu: getnamedvarlistattrs response: missing listOfVariable"
        else
          match decodeTLVAt content flag.consumed with
          | .error text => .error ("pdu: getnamedvarlistattrs response: listOfVariable: " ++ text)
          | .ok list =>
            if list.tag ≠ 0xa1 then
              .error ("pdu: getnamedvarlistattrs response: expected [1] (0xa1), got 0x" ++
                hex02 list.tag)
            else
              match decodeVariableList list.content with
              | .error text => .error ("pdu: getnamedvarlistattrs response: " ++ text)
              | .ok vars =>
                if flag.consumed + list.consumed ≠ content.length then
                  .error ("pdu: getnamedvarlistattrs response: " ++
                    toString ((content.length : Int) - (flag.consumed + list.consumed : Nat)) ++
                    " trailing bytes")
                else .ok ⟨deletable, vars⟩

/-! ## Names -/

section Names

variable {name : ObjectNameWire} {octets : Octets}

theorem encodeObjectName_eq_encodeTLV (encoded : encodeObjectName name = .ok octets) :
    ∃ tag content, octets = encodeTLV tag content := by
  unfold encodeObjectName at encoded
  split_ifs at encoded
  all_goals
    cases encoded
    exact ⟨_, _, rfl⟩

theorem decodeObjectNameAt_encode (encoded : encodeObjectName name = .ok octets)
    (fits : octets.length < maxContent) (front rest : Octets) :
    decodeObjectNameAt (front ++ octets ++ rest) front.length =
      .ok (name.received, octets.length) := by
  obtain ⟨written, again, arrives⟩ := decodeObjectName_encode (knownScope_of_encode encoded)
  obtain rfl : octets = written := Except.ok.inj (encoded.symm.trans again)
  have decoded := arrives fits
  obtain ⟨tag, content, rfl⟩ := encodeObjectName_eq_encodeTLV encoded
  have short := (length_le_encodeTLV tag content).trans_lt fits
  simp only [decodeObjectName, decodeTLV_encodeTLV tag short] at decoded
  simp only [decodeObjectNameAt, decodeTLVAt_encodeTLV tag short front rest, decoded,
    length_encodeTLV]

/-- Only a domain-specific name comes off the wire with a domain. -/
theorem received_of_decodeObjectNameFromTLV {tag : UInt8} {content : Octets}
    (decoded : decodeObjectNameFromTLV tag content = .ok name) : name.received = name := by
  unfold decodeObjectNameFromTLV at decoded
  split_ifs at decoded
  · cases decoded
    rfl
  · unfold decodeDomainSpecificName at decoded
    split at decoded
    · cases decoded
    split at decoded
    · cases decoded
    split_ifs at decoded
    cases decoded
    rfl
  · cases decoded
    rfl

theorem received_of_decodeObjectNameAt {data : Octets} {offset consumed : Nat}
    (decoded : decodeObjectNameAt data offset = .ok (name, consumed)) : name.received = name := by
  unfold decodeObjectNameAt at decoded
  split at decoded
  · cases decoded
  split at decoded
  · cases decoded
  rename_i named
  cases decoded
  exact received_of_decodeObjectNameFromTLV named

end Names

/-! ## Lists of variables -/

section Variables

variable {data : Octets}

/-- The two decoders of a specification differ in their error texts only. -/
theorem decodeAccessFull_of_decodeAccess {offset : Nat} {access : List AccessSelectorWire × Nat}
    (decoded : decodeAccess data offset = .ok access) :
    decodeAccessFull data offset = .ok access := by
  unfold decodeAccess at decoded
  unfold decodeAccessFull
  split_ifs at decoded ⊢
  · split at decoded
    · cases decoded
    rename_i tlv read
    split_ifs at decoded with other
    split at decoded
    · cases decoded
    rename_i selectors chain
    cases decoded
    simp only [read, Decidable.not_not.mp other, if_true, chain]
  · exact decoded

theorem decodeVariableSpecFull_of_decodeVariableSpecWire {spec : VariableSpecWire}
    (decoded : decodeVariableSpecWire data = .ok spec) :
    decodeVariableSpecFull data = .ok spec := by
  unfold decodeVariableSpecWire at decoded
  unfold decodeVariableSpecFull
  split at decoded
  · cases decoded
  rename_i tlv read
  split_ifs at decoded with other
  split at decoded
  · cases decoded
  rename_i name named
  split at decoded
  · cases decoded
  rename_i selectors offset access
  split_ifs at decoded with trailing
  cases decoded
  have tag : ¬ tlv.tag ≠ 0xa0 := other
  simp only [read, tag, if_false, named, decodeAccessFull_of_decodeAccess access, trailing]

theorem decodeVariableList_of_decodeVarSpecListFull {specs : List VariableSpecWire}
    (decoded : decodeVarSpecListFull data = .ok specs) : decodeVariableList data = .ok specs := by
  unfold decodeVarSpecListFull at decoded
  split at decoded
  · cases decoded
  rename_i specs last loop
  cases decoded
  have same := offsetLoop_mono (variablePass data) (fun found offset step pass => ?_) loop
  · simp only [decodeVariableList, same]
  · unfold varSpecPass at pass
    unfold variablePass
    split at pass
    · cases pass
    rename_i tlv read
    split_ifs at pass with sequence
    split at pass
    · cases pass
    rename_i spec one
    cases pass
    simp only [read, sequence, if_false, decodeVariableSpecFull_of_decodeVariableSpecWire one]

/-- What arrives of a list that was encoded, also when it is sent on as it arrived. -/
theorem decodeVariableList_encode {i : Nat} {vars : List VariableSpecWire} {entries : Octets}
    (encoded : encodeVariableSpecs i vars = .ok entries) (short : ∀ v ∈ vars, v.ShortComponents)
    (fits : entries.length < maxContent) :
    decodeVariableList entries = .ok (vars.map VariableSpecWire.received) := by
  obtain ⟨written, again, arrives⟩ := decodeVarSpecListFull_encode i
    (sendable_received_of_encodeVariableSpecs encoded short)
  rw [encodeVariableSpecs_received, encoded] at again
  cases again
  have decoded := arrives fits
  rw [List.map_map] at decoded
  apply decodeVariableList_of_decodeVarSpecListFull
  rw [decoded]
  congr 1
  exact List.map_congr_left fun v _ => v.received_received

end Variables

/-! ## Requests and responses arrive -/

section Requests

variable {listName : ObjectNameWire} {vars : List VariableSpecWire} {nameBytes entries : Octets}

theorem unmarshalDefineNVLRequest_encode (named : encodeObjectName listName = .ok nameBytes)
    (encoded : encodeVariableSpecs 0 vars = .ok entries) (short : ∀ v ∈ vars, v.ShortComponents)
    (fits : (nameBytes ++ encodeTLV 0xa0 entries).length < maxContent) :
    unmarshalDefineNVLRequest (nameBytes ++ encodeTLV 0xa0 entries) =
      .ok ⟨listName.received, vars.map VariableSpecWire.received⟩ := by
  have list := length_le_encodeTLV 0xa0 entries
  have positive := two_le_tlvSize entries.length
  rw [List.length_append] at fits
  have inside : entries.length < maxContent := by omega
  have name := decodeObjectNameAt_encode named (by omega) [] (encodeTLV 0xa0 entries)
  have read := decodeTLVAt_encodeTLV 0xa0 inside nameBytes []
  simp only [List.nil_append, List.length_nil] at name
  rw [List.append_nil] at read
  simp only [unmarshalDefineNVLRequest, name, read, ne_eq, not_true_eq_false, if_false,
    decodeDefineNVLVarList, decodeVariableList_encode encoded short inside, List.length_append,
    length_encodeTLV]
  rw [if_neg (by omega)]

theorem unmarshalGetNVLAttrsRequest_encode (named : encodeObjectName listName = .ok nameBytes)
    (fits : nameBytes.length < maxContent) :
    unmarshalGetNVLAttrsRequest nameBytes = .ok listName.received := by
  have name := decodeObjectNameAt_encode named fits [] []
  simp only [List.nil_append, List.append_nil, List.length_nil] at name
  simp only [unmarshalGetNVLAttrsRequest, name, ne_eq, not_true_eq_false, if_false]

variable {listNames : List ObjectNameWire} {body : Octets}

variable {nameEntries payload : Octets} {invokeID : UInt32} {number : Nat}

theorem encodeListNames_eq {i : Nat} (encoded : encodeListNames i listNames = .ok nameEntries) :
    ∃ items : List (ObjectNameWire × Octets), items.map Prod.fst = listNames ∧
      nameEntries = items.flatMap Prod.snd ∧
      ∀ item ∈ items, encodeObjectName item.1 = .ok item.2 := by
  induction listNames generalizing i nameEntries with
  | nil =>
    cases encoded
    exact ⟨[], rfl, rfl, by simp⟩
  | cons n listNames ih =>
    unfold encodeListNames at encoded
    split at encoded
    · cases encoded
    rename_i octets first
    split at encoded
    · cases encoded
    rename_i rest following
    cases encoded
    obtain ⟨items, rfl, rfl, others⟩ := ih following
    exact ⟨(n, octets) :: items, rfl, rfl, List.forall_mem_cons.mpr ⟨first, others⟩⟩

theorem unmarshalDeleteNVLRequest_encode (encoded : encodeListNames 0 listNames = .ok nameEntries)
    (fits : nameEntries.length < maxContent) :
    unmarshalDeleteNVLRequest (encodeTLV 0xa1 nameEntries) =
      .ok { listNames := listNames.map ObjectNameWire.received } := by
  obtain ⟨items, rfl, rfl, names⟩ := encodeListNames_eq encoded
  have loop := offsetLoop_collect Prod.snd
    (fun item : ObjectNameWire × Octets => item.1.received) listNamePass items
    (fun front rest found item member _ => ?_)
  · have positive := two_le_tlvSize (items.flatMap Prod.snd).length
    have read := decodeTLVAt_alone 0xa1 fits
    have specific : decodeScopeOfDelete (encodeTLV 0xa1 (items.flatMap Prod.snd)) = .ok (0, 0) := by
      simp only [decodeScopeOfDelete, read]
      split_ifs with _ scope
      · exact absurd scope (by decide)
      · rfl
      · rfl
    have ends : decodeDomainName (encodeTLV 0xa1 (items.flatMap Prod.snd))
        (0 + tlvSize (items.flatMap Prod.snd).length) =
        .ok ([], tlvSize (items.flatMap Prod.snd).length) := by
      rw [Nat.zero_add, decodeDomainName, if_neg]
      rw [length_encodeTLV]
      exact lt_irrefl _
    simp only [unmarshalDeleteNVLRequest, specific, read, loop, ends, ne_eq, not_true_eq_false,
      if_false, length_encodeTLV, List.map_map]
    rw [if_neg (by omega)]
    rfl
  · have short := (length_le_flatMap member Prod.snd).trans_lt fits
    obtain ⟨tag, content, shape⟩ := encodeObjectName_eq_encodeTLV (names item member)
    refine ⟨?_, by rw [shape]; simp [encodeTLV]⟩
    simp only [listNamePass, decodeObjectNameAt_encode (names item member) short front rest]

theorem listNamePass_ok {content : Octets} {found : List ObjectNameWire} {offset : Nat}
    {step : LoopStep (List ObjectNameWire)} (pass : listNamePass content found offset = .ok step) :
    ∃ n next, n.received = n ∧ step = .next (found ++ [n]) next := by
  unfold listNamePass at pass
  split at pass
  · cases pass
  rename_i read
  cases pass
  exact ⟨_, _, received_of_decodeObjectNameAt read, rfl⟩

theorem received_of_unmarshalDeleteNVLRequest {req : DeleteNVLRequest}
    (parsed : unmarshalDeleteNVLRequest body = .ok req) : ∀ n ∈ req.listNames, n.received = n := by
  unfold unmarshalDeleteNVLRequest at parsed
  split at parsed
  · cases parsed
  split_ifs at parsed
  split at parsed
  · cases parsed
  split_ifs at parsed
  split at parsed
  · cases parsed
  rename_i listNames last loop
  split at parsed
  · cases parsed
  split_ifs at parsed
  cases parsed
  refine offsetLoop_invariant (fun found _ => ∀ n ∈ found, n.received = n)
    (fun found offset step all _ pass => ?_) (by simp) loop
  obtain ⟨n, next, fixed, rfl⟩ := listNamePass_ok pass
  exact List.forall_mem_append.mpr ⟨all, by simpa using fixed⟩

/-- The response carries the flag and the members of the list, as they were stored on arrival. -/
theorem unmarshalGetNamedVarListAttrsResponse_marshal (deletable : Bool)
    (encoded : encodeVariableSpecs 0 vars = .ok entries) (short : ∀ v ∈ vars, v.ShortComponents)
    (fits : entries.length < maxContent) :
    ∃ payload,
      marshalGetNVLAttrsResponse deletable (vars.map VariableSpecWire.received) = .ok payload ∧
      unmarshalGetNamedVarListAttrsResponse payload =
        .ok ⟨deletable, vars.map VariableSpecWire.received⟩ := by
  refine ⟨encodeTLV 0x80 [if deletable then 0xff else 0x00] ++ encodeTLV 0xa1 entries,
    by simp only [marshalGetNVLAttrsResponse, encodeVariableSpecs_received, encoded], ?_⟩
  have one : [if deletable then (0xff : UInt8) else 0x00].length < maxContent := by
    rw [List.length_singleton]
    decide
  have flag := decodeTLVAt_encodeTLV 0x80 one [] (encodeTLV 0xa1 entries)
  have list := decodeTLVAt_encodeTLV 0xa1 fits
    (encodeTLV 0x80 [if deletable then 0xff else 0x00]) []
  have positive := two_le_tlvSize entries.length
  simp only [List.nil_append, List.length_nil] at flag
  rw [List.append_nil, length_encodeTLV] at list
  simp only [unmarshalGetNamedVarListAttrsResponse, flag, list, ne_eq, not_true_eq_false, if_false,
    decodeVariableList_encode encoded short fits, List.length_append, length_encodeTLV]
  rw [if_neg (by omega), if_neg (by omega)]
  cases deletable <;> rfl

/-- The service body that reaches the server from a request the client encodes. -/
def Arrives (marshal : UInt32 → Except String Octets) (tag : Nat) (body : Octets) : Prop :=
  ∃ invokeID pdu, marshal invokeID = .ok pdu ∧ Expressible pdu ∧ Delivers pdu invokeID tag body

theorem Delivers.body_eq {pdu other : Octets} {tag : Nat} (first : Delivers pdu invokeID tag body)
    (second : Delivers pdu invokeID number other) : body = other := by
  obtain ⟨content, raw, unwrapped, parsed, -, rfl⟩ := first
  obtain ⟨content', raw', unwrapped', parsed', -, rfl⟩ := second
  rw [unwrapped] at unwrapped'
  cases unwrapped'
  rw [parsed] at parsed'
  cases parsed'
  rfl

/-- The body of a request is its payload. -/
theorem Delivers.eq_payload {tag : UInt8} (low : (tag &&& 0x1f).toNat ≤ 30)
    (expressible : Expressible (marshalConfirmedLegacy invokeID tag payload))
    (delivers : Delivers (marshalConfirmedLegacy invokeID tag payload) invokeID number body) :
    body = payload ∧ payload.length < maxContent := by
  obtain ⟨small, own⟩ := delivers_marshalConfirmedLegacy low expressible
  exact ⟨delivers.body_eq own, small⟩

theorem arrives_of_marshal {marshal : UInt32 → Except String Octets} (invokeID : UInt32)
    (tag : UInt8) (low : (tag &&& 0x1f).toNat ≤ 30)
    (marshalled : marshal invokeID = .ok (marshalConfirmedLegacy invokeID tag payload))
    (fits : (marshalConfirmedLegacy invokeID tag payload).length < maxContent) :
    Arrives marshal (tag &&& 0x1f).toNat payload :=
  ⟨invokeID, _, marshalled, expressible_of_length fits,
    (delivers_marshalConfirmedLegacy low (expressible_of_length fits)).2⟩

theorem unmarshalDefineNVLRequest_arrives (short : ∀ v ∈ vars, v.ShortComponents)
    (arrives : Arrives (marshalDefineNamedVarListRequest · listName vars) 11 body) :
    unmarshalDefineNVLRequest body =
        .ok ⟨listName.received, vars.map VariableSpecWire.received⟩ ∧
      ∃ entries, encodeVariableSpecs 0 vars = .ok entries ∧ entries.length < maxContent := by
  obtain ⟨invokeID, pdu, marshalled, expressible, delivers⟩ := arrives
  simp only [marshalDefineNamedVarListRequest] at marshalled
  split at marshalled
  · cases marshalled
  rename_i nameBytes named
  split at marshalled
  · cases marshalled
  rename_i entries encoded
  cases marshalled
  obtain ⟨rfl, fits⟩ := delivers.eq_payload (by decide) expressible
  refine ⟨unmarshalDefineNVLRequest_encode named encoded short fits, entries, encoded, ?_⟩
  have list := length_le_encodeTLV 0xa0 entries
  rw [List.length_append] at fits
  omega

theorem unmarshalGetNVLAttrsRequest_arrives
    (arrives : Arrives (marshalGetNamedVarListAttrsRequest · listName) 12 body) :
    unmarshalGetNVLAttrsRequest body = .ok listName.received := by
  obtain ⟨invokeID, pdu, marshalled, expressible, delivers⟩ := arrives
  simp only [marshalGetNamedVarListAttrsRequest] at marshalled
  split at marshalled
  · cases marshalled
  rename_i payload named
  cases marshalled
  obtain ⟨rfl, fits⟩ := delivers.eq_payload (by decide) expressible
  exact unmarshalGetNVLAttrsRequest_encode named fits

theorem unmarshalDeleteNVLRequest_arrives
    (arrives : Arrives (marshalDeleteNamedVarListRequest · listNames) 13 body) :
    unmarshalDeleteNVLRequest body =
      .ok { listNames := listNames.map ObjectNameWire.received } := by
  obtain ⟨invokeID, pdu, marshalled, expressible, delivers⟩ := arrives
  simp only [marshalDeleteNamedVarListRequest] at marshalled
  split at marshalled
  · cases marshalled
  rename_i nameEntries encoded
  cases marshalled
  obtain ⟨rfl, fits⟩ := delivers.eq_payload (by decide) expressible
  exact unmarshalDeleteNVLRequest_encode encoded
    ((length_le_encodeTLV 0xa1 nameEntries).trans_lt fits)

end Requests

end GoMms.Pdu
