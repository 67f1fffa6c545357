import GoMms.Pdu.DecoderBounds

/-!
# The decoders run on a fixed number of frames

The decoders once more, with the depth counter of the source and with the stack frames that are
left. Whatever they are given they never run out of frames and no loop of theirs stands still, so
that they return what the plain decoders return.
-/

namespace GoMms.Pdu

open Octets Berutil DataValue

/-! ## Decoding on a stack of frames -/

section Frames

/-- `decodeObjectIdentifier` with its loop checked. -/
def decodeObjectIdentifierChecked (data : Octets) : Except Fault (Except String (List Int64)) :=
  if data.length = 0 then .ok (.error "empty OID content")
  else
    match decodeBase128 data 0 with
    | .error text => .ok (.error ("OID first component: " ++ text))
    | .ok (first, count) => do
        match ← checkedLoop data.length (fun oid offset => .ok (decodeArc data oid offset))
            (splitFirst first) count with
        | .error text => return .error text
        | .ok (oid, _) => return .ok oid

section Data

variable (runtime : Runtime)
  (read : Octets → Nat → Except Fault (Except String (DataValue × Nat)))

def accessResultChecked (data : Octets) (results : List DataValue) (offset : Nat) :
    Except Fault (Except String (LoopStep (List DataValue))) := do
  match ← read data offset with
  | .error text =>
    return .error ("pdu: access result [" ++ toString results.length ++ "]: " ++ text)
  | .ok (value, consumed) =>
    let results := results ++ [value]
    if results.length > maxAccessResults then
      return .error ("pdu: access results count " ++ toString results.length ++
        " exceeds maximum " ++ toString maxAccessResults)
    else return .ok (.next results (offset + consumed))

def accessResultsChecked (data : Octets) : Except Fault (Except String (List DataValue)) := do
  match ← checkedLoop data.length (accessResultChecked read data) [] 0 with
  | .error text => return .error text
  | .ok (results, offset) =>
    if offset ≠ data.length then
      return .error ("pdu: " ++ toString ((data.length : Int) - offset) ++
        " trailing bytes in access results")
    else return .ok results

/-- The contents that are read by a recursive call or a loop; the others are read by
`decodeDataContent`, which needs no decoder one level down for them. -/
def decodeDataContentChecked (tag : UInt8) (content : Octets) :
    Except Fault (Except String DataValue) :=
  if tag = 0xa1 then do
    match ← accessResultsChecked read content with
    | .error text => return .error text
    | .ok elements => return .ok (.array elements)
  else if tag = 0xa2 then do
    match ← accessResultsChecked read content with
    | .error text => return .error text
    | .ok elements => return .ok (.struct elements)
  else if tag = 0x8f then do
    match ← decodeObjectIdentifierChecked content with
    | .error text => return .error ("pdu: object identifier: " ++ text)
    | .ok oid => return .ok (.objectIdentifier oid)
  else .ok (decodeDataContent runtime (fun _ _ => .error "") tag content)

end Data

/-- `unmarshalDataElementWithDepth` with the source's depth counter, on a stack of `frames`
frames. -/
def unmarshalDataElementChecked (runtime : Runtime) : (frames depth : Nat) → (data : Octets) →
    (offset : Nat) → Except Fault (Except String (DataValue × Nat))
  | 0, _, _, _ => .error .stackExhausted
  | frames + 1, depth, data, offset =>
    if depth > maxDataNestingDepth then
      .ok (.error ("pdu: data nesting depth " ++ toString depth ++ " exceeds maximum " ++
        toString maxDataNestingDepth))
    else
      match decodeTLVAt data offset with
      | .error text => .ok (.error ("pdu: data element: " ++ text))
      | .ok tlv => do
          match ← decodeDataContentChecked runtime
              (unmarshalDataElementChecked runtime frames (depth + 1)) tlv.tag tlv.content with
          | .error text => return .error text
          | .ok value => return .ok (value, tlv.consumed)

theorem decodeObjectIdentifierChecked_eq (data : Octets) :
    decodeObjectIdentifierChecked data = .ok (decodeObjectIdentifier data) := by
  unfold decodeObjectIdentifierChecked decodeObjectIdentifier
  split_ifs with empty
  · rfl
  · cases decodeBase128 data 0 with
    | error text => rfl
    | ok lead =>
      have loop : checkedLoop data.length (fun oid offset => .ok (decodeArc data oid offset))
          (splitFirst lead.1) lead.2 =
            .ok (offsetLoop data.length (decodeArc data) (splitFirst lead.1) lead.2) := by
        refine checkedLoop_eq (fun _ _ _ => rfl) ?_ _ _
        intro oid offset next after _ pass
        unfold decodeArc at pass
        split at pass
        · cases pass
        rename_i arc count read
        cases pass
        have positive := (decodeBase128_ok read).1
        omega
      dsimp only
      rw [loop, ok_bind]
      cases offsetLoop data.length (decodeArc data) (splitFirst lead.1) lead.2 with
      | error text => rfl
      | ok oid => rfl

section Data

variable {runtime : Runtime}
  {checked : Octets → Nat → Except Fault (Except String (DataValue × Nat))}
  {plain : Octets → Nat → Except String (DataValue × Nat)}

section Safe

variable (safe : ∀ data offset, checked data offset = .ok (plain data offset))

include safe

theorem accessResultChecked_eq (data : Octets) (results : List DataValue) (offset : Nat) :
    accessResultChecked checked data results offset =
      .ok (accessResult plain data results offset) := by
  unfold accessResultChecked accessResult
  rw [safe, ok_bind]
  cases plain data offset with
  | error text => rfl
  | ok element =>
    dsimp only
    split_ifs with many
    · rfl
    · rfl

theorem accessResultsChecked_eq
    (moves : ∀ {data offset value consumed}, plain data offset = .ok (value, consumed) →
      0 < consumed) (data : Octets) :
    accessResultsChecked checked data = .ok (accessResults plain data) := by
  have loop : checkedLoop data.length (accessResultChecked checked data) [] 0 =
      .ok (offsetLoop data.length (accessResult plain data) [] 0) := by
    refine checkedLoop_eq (fun results offset _ => accessResultChecked_eq safe data results offset)
      ?_ [] 0
    intro results offset next after _ pass
    unfold accessResult at pass
    split at pass
    · cases pass
    rename_i value consumed found
    dsimp only at pass
    split_ifs at pass
    cases pass
    have positive := moves found
    omega
  unfold accessResultsChecked accessResults
  rw [loop, ok_bind]
  cases offsetLoop data.length (accessResult plain data) [] 0 with
  | error text => rfl
  | ok ended =>
    dsimp only
    split_ifs with whole
    · rfl
    · rfl

theorem decodeDataContentChecked_eq
    (moves : ∀ {data offset value consumed}, plain data offset = .ok (value, consumed) →
      0 < consumed) (tag : UInt8) (content : Octets) :
    decodeDataContentChecked runtime checked tag content =
      .ok (decodeDataContent runtime plain tag content) := by
  unfold decodeDataContentChecked
  split_ifs with array struct oid
  · subst array
    rw [accessResultsChecked_eq safe moves, ok_bind]
    simp only [decodeDataContent]
    cases accessResults plain content with
    | error text => rfl
    | ok elements => rfl
  · subst struct
    rw [accessResultsChecked_eq safe moves, ok_bind]
    simp only [decodeDataContent]
    cases accessResults plain content with
    | error text => rfl
    | ok elements => rfl
  · subst oid
    rw [decodeObjectIdentifierChecked_eq, ok_bind]
    simp only [decodeDataContent]
    cases decodeObjectIdentifier content with
    | error text => rfl
    | ok oid => rfl
  · congr 1
    unfold decodeDataContent
    split
    case h_16 => exact absurd rfl array
    case h_17 => exact absurd rfl struct
    all_goals rfl

end Safe

/-- The depth counter and the levels that may still be entered add up: a frame more than there are
levels is enough. -/
theorem unmarshalDataElementChecked_eq {frames depth levels : Nat}
    (counted : depth + levels = maxDataNestingDepth + 1) (enough : levels < frames)
    (data : Octets) (offset : Nat) :
    unmarshalDataElementChecked runtime frames depth data offset =
      .ok (unmarshalDataElementWithDepth runtime levels data offset) := by
  induction frames generalizing depth levels data offset with
  | zero => exact absurd enough (Nat.not_lt_zero levels)
  | succ frames ih =>
    rw [unmarshalDataElementChecked]
    cases levels with
    | zero =>
      obtain rfl : depth = maxDataNestingDepth + 1 := counted
      rw [if_pos (Nat.lt_succ_self _)]
      rfl
    | succ levels =>
      have deeper := @ih (depth + 1) levels (by omega) (by omega)
      rw [if_neg (by omega), unmarshalDataElementWithDepth]
      cases decodeTLVAt data offset with
      | error text => rfl
      | ok tlv =>
        dsimp only
        rw [decodeDataContentChecked_eq deeper consumed_pos_of_decode, ok_bind]
        cases decodeDataContent runtime (unmarshalDataElementWithDepth runtime levels) tlv.tag
          tlv.content with
        | error text => rfl
        | ok value => rfl

end Data

section TypeSpec

variable (read : Octets → Except Fault (Except String TypeSpecWire))

/-- One pass of the component loop. -/
def structComponentPassChecked (data : Octets) (components : List (Octets × TypeSpecWire))
    (offset : Nat) : Except Fault (Except String (LoopStep (List (Octets × TypeSpecWire)))) :=
  match decodeTLVAt data offset with
  | .error text => .ok (.error ("component [" ++ toString components.length ++ "]: " ++ text))
  | .ok tlv =>
    if tlv.tag ≠ tagSequence then
      .ok (.error ("component [" ++ toString components.length ++
        "]: expected SEQUENCE (0x30), got 0x" ++ hex02 tlv.tag))
    else
      match componentParts tlv.content with
      | .error text => .ok (.error ("component [" ++ toString components.length ++ "]: " ++ text))
      | .ok (name, content) => do
          match ← read content with
          | .error text =>
            return .error ("component [" ++ toString components.length ++
              "]: " ++ ("componentType: " ++ text))
          | .ok ts => return .ok (.next (components ++ [(name, ts)]) (offset + tlv.consumed))

/-- The types that are read by a recursive call; the others are read by `decodeTypeSpecFromTLV`,
which needs no decoder one level down for them. -/
def decodeTypeSpecFromTLVChecked (tag : UInt8) (content : Octets) :
    Except Fault (Except String TypeSpecWire) :=
  if (tag &&& 0x1f).toNat = 1 ∧ tag &&& 0x20 ≠ 0 then
    match arrayParts content with
    | .error text => .ok (.error text)
    | .ok (count, content) => do
        match ← read content with
        | .error text => return .error ("array elementType: " ++ text)
        | .ok elemType => return .ok (.array count (some elemType))
  else if (tag &&& 0x1f).toNat = 2 ∧ tag &&& 0x20 ≠ 0 then
    match structureParts content with
    | .error text => .ok (.error text)
    | .ok content => do
        match ← checkedLoop content.length (structComponentPassChecked read content) [] 0 with
        | .error text => return .error text
        | .ok (components, _) => return .ok (.struct components)
  else .ok (decodeTypeSpecFromTLV (fun _ => .error "") tag content)

end TypeSpec

/-- `decodeTypeSpecWithDepth` with the source's depth counter, on a stack of `frames` frames. -/
def decodeTypeSpecChecked :
    (frames depth : Nat) → Octets → Except Fault (Except String TypeSpecWire)
  | 0, _, _ => .error .stackExhausted
  | frames + 1, depth, data =>
    if depth > maxTypeSpecNestingDepth then
      .ok (.error ("pdu: typespec nesting depth " ++ toString depth ++ " exceeds maximum " ++
        toString maxTypeSpecNestingDepth))
    else
      match decodeTLV data with
      | .error text => .ok (.error ("typespec: " ++ text))
      | .ok (tag, content) =>
        decodeTypeSpecFromTLVChecked (decodeTypeSpecChecked frames (depth + 1)) tag content

section TypeSpec

variable {checked : Octets → Except Fault (Except String TypeSpecWire)}
  {plain : Octets → Except String TypeSpecWire}

theorem structComponentPassChecked_eq (safe : ∀ data, checked data = .ok (plain data))
    (data : Octets) (components : List (Octets × TypeSpecWire)) (offset : Nat) :
    structComponentPassChecked checked data components offset =
      .ok (fieldPass (fun components => "component [" ++ toString components.length ++ "]: ")
        (structComponentField plain) data components offset) := by
  unfold structComponentPassChecked fieldPass structComponentField
  cases decodeTLVAt data offset with
  | error text => rfl
  | ok tlv =>
    dsimp only
    split_ifs with other
    · rfl
    · rw [decodeStructComponent_eq]
      cases componentParts tlv.content with
      | error text => rfl
      | ok parts =>
        dsimp only
        rw [safe, ok_bind]
        cases plain parts.2 with
        | error text => rfl
        | ok ts => rfl

theorem decodeStructComponents_checked (safe : ∀ data, checked data = .ok (plain data))
    (data : Octets) :
    checkedLoop data.length (structComponentPassChecked checked data) [] 0 =
      .ok (offsetLoop data.length
        (fieldPass (fun components => "component [" ++ toString components.length ++ "]: ")
          (structComponentField plain) data) [] 0) := by
  refine checkedLoop_eq (fun components offset _ =>
    structComponentPassChecked_eq safe data components offset) ?_ [] 0
  intro components offset next after _ pass
  unfold fieldPass at pass
  split at pass
  · cases pass
  rename_i tlv read
  split at pass
  · cases pass
  cases pass
  have positive := consumed_pos read
  omega

theorem decodeTypeSpecFromTLV_constructed_array {tag : UInt8}
    (selected : (tag &&& 0x1f).toNat = 1 ∧ tag &&& 0x20 ≠ 0) (content : Octets) :
    decodeTypeSpecFromTLV plain tag content = decodeArrayTypeSpec plain content := by
  unfold decodeTypeSpecFromTLV
  rw [selected.1]
  exact if_pos selected.2

theorem decodeTypeSpecFromTLV_constructed_struct {tag : UInt8}
    (selected : (tag &&& 0x1f).toNat = 2 ∧ tag &&& 0x20 ≠ 0) (content : Octets) :
    decodeTypeSpecFromTLV plain tag content = decodeStructureTypeSpec plain content := by
  unfold decodeTypeSpecFromTLV
  rw [selected.1]
  exact if_pos selected.2

theorem decodeTypeSpecFromTLVChecked_eq (safe : ∀ data, checked data = .ok (plain data))
    (tag : UInt8) (content : Octets) :
    decodeTypeSpecFromTLVChecked checked tag content =
      .ok (decodeTypeSpecFromTLV plain tag content) := by
  unfold decodeTypeSpecFromTLVChecked
  split_ifs with array struct
  · rw [decodeTypeSpecFromTLV_constructed_array array, decodeArrayTypeSpec_eq]
    cases arrayParts content with
    | error text => rfl
    | ok parts =>
      dsimp only
      rw [safe, ok_bind]
      cases plain parts.2 with
      | error text => rfl
      | ok element => rfl
  · rw [decodeTypeSpecFromTLV_constructed_struct struct, decodeStructureTypeSpec_eq]
    cases structureParts content with
    | error text => rfl
    | ok parts =>
      dsimp only
      rw [decodeStructComponents_checked safe, ok_bind, decodeStructComponents, decodeFields]
      cases offsetLoop parts.length
        (fieldPass (fun components => "component [" ++ toString components.length ++ "]: ")
          (structComponentField plain) parts) [] 0 with
      | error text => rfl
      | ok components => rfl
  · congr 1
    unfold decodeTypeSpecFromTLV
    dsimp only
    split
    case h_14 number =>
      have primitive : ¬(tag &&& 0x20 ≠ 0) := fun constructed => array ⟨number, constructed⟩
      rw [if_neg primitive, if_neg primitive]
    case h_15 number =>
      have primitive : ¬(tag &&& 0x20 ≠ 0) := fun constructed => struct ⟨number, constructed⟩
      rw [if_neg primitive, if_neg primitive]
    all_goals rfl

theorem decodeTypeSpecChecked_eq {frames depth levels : Nat}
    (counted : depth + levels = maxTypeSpecNestingDepth + 1) (enough : levels < frames)
    (data : Octets) :
    decodeTypeSpecChecked frames depth data = .ok (decodeTypeSpecWithDepth levels data) := by
  induction frames generalizing depth levels data with
  | zero => exact absurd enough (Nat.not_lt_zero levels)
  | succ frames ih =>
    rw [decodeTypeSpecChecked]
    cases levels with
    | zero =>
      obtain rfl : depth = maxTypeSpecNestingDepth + 1 := counted
      rw [if_pos (Nat.lt_succ_self _)]
      rfl
    | succ levels =>
      have deeper := @ih (depth + 1) levels (by omega) (by omega)
      rw [if_neg (by omega), decodeTypeSpecWithDepth]
      cases decodeTLV data with
      | error text => rfl
      | ok record => exact decodeTypeSpecFromTLVChecked_eq deeper record.1 record.2

end TypeSpec

end Frames

/-- The decoders return on a stack of fixed size, and what they return is bounded by their limits
and by the octets they were given. -/
theorem decoders_bounded (runtime : Runtime) :
    (∀ data offset,
      unmarshalDataElementChecked runtime 66 0 data offset =
          .ok (unmarshalDataElement runtime data offset) ∧
        ∀ value consumed, unmarshalDataElement runtime data offset = .ok (value, consumed) →
          value.depth ≤ 64 ∧ (∀ node ∈ value.nodes, node.children.length ≤ 65536) ∧
            2 * value.nodes.length ≤ data.length) ∧
    (∀ data,
      accessResultsChecked (unmarshalDataElementChecked runtime 66 0) data =
          .ok (unmarshalAccessResults runtime data) ∧
        ∀ values, unmarshalAccessResults runtime data = .ok values →
          values.length ≤ 65536 ∧ (∀ value ∈ values, value.depth ≤ 64) ∧
            (∀ node ∈ nodesBelow values, node.children.length ≤ 65536) ∧
            2 * (nodesBelow values).length ≤ data.length) ∧
    ∀ data,
      decodeTypeSpecChecked 34 0 data = .ok (decodeTypeSpec data) ∧
        ∀ ts, decodeTypeSpec data = .ok ts →
          (∀ depth, ∀ node ∈ ts.nodesAt depth, depth ≤ 32) ∧ 2 * ts.size ≤ data.length := by
  have safe (data : Octets) (offset : Nat) :
      unmarshalDataElementChecked runtime 66 0 data offset =
        .ok (unmarshalDataElementWithDepth runtime (maxDataNestingDepth + 1) data offset) :=
    unmarshalDataElementChecked_eq (Nat.zero_add _) (by decide) data offset
  refine ⟨fun data offset => ⟨safe data offset, ?_⟩, fun data => ⟨?_, ?_⟩, fun data => ⟨?_, ?_⟩⟩
  · intro value consumed decoded
    have bounded := bounded_of_decode decoded
    have inside := consumed_le_of_decode decoded
    exact ⟨Nat.le_of_lt_succ bounded.depth_lt, bounded.children_le, bounded.nodes_le.trans inside⟩
  · exact accessResultsChecked_eq safe consumed_pos_of_decode data
  · intro values decoded
    have bounded := boundedList_of_accessResults bounded_of_decode decoded
    exact ⟨bounded.count_le, fun value member => Nat.le_of_lt_succ (bounded.depth_lt value member),
      bounded.children_le, bounded.nodes_le⟩
  · exact decodeTypeSpecChecked_eq (Nat.zero_add _) (by decide) data
  · intro ts decoded
    have bounded := typeBounded_of_decode decoded
    exact ⟨fun depth node member => Nat.le_of_lt_succ (bounded.depth_lt depth node member),
      bounded.size_le⟩

theorem decoders_bounded_nested :
    ∃ values, unmarshalAccessResults default [0xa2, 0x03, 0x83, 0x01, 0xff] = .ok values ∧
      values.length ≤ 65536 ∧ 2 * (nodesBelow values).length ≤ 5 := by
  have accepted : (unmarshalAccessResults default [0xa2, 0x03, 0x83, 0x01, 0xff]).isOk = true := by
    decide +kernel
  cases decoded : unmarshalAccessResults default [0xa2, 0x03, 0x83, 0x01, 0xff] with
  | error text =>
    rw [decoded] at accepted
    cases accepted
  | ok values =>
    have bounded := ((decoders_bounded default).2.1 _).2 values decoded
    exact ⟨values, rfl, bounded.1, bounded.2.2.2⟩

end GoMms.Pdu
