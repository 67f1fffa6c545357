import GoMms.Berutil.Records
import GoMms.Pdu.Selectors

/-!
# Lists of variable specifications

`encodeListOfVariableWithAccess` on the client's side and `decodeVarSpecListFull` on the
server's: names with optional alternate access. Every list arrives, each name with its domain only
if it is domain-specific.
-/

namespace GoMms.Pdu

open Berutil

def tagSequence : UInt8 := 0x30
def tagVarSpecName : UInt8 := 0xa0
def tagListOfVar : UInt8 := 0xa0
def tagVarListName : UInt8 := 0xa1

/-! ## Encoding -/

/-- The contents of one element of a variable list. -/
def encodeVariableSpec (i : Nat) (v : VariableSpecWire) : Except String Octets :=
  match encodeObjectName v.name with
  | .error text => .error ("variable [" ++ toString i ++ "]: " ++ text)
  | .ok nameBytes =>
    if v.alternateAccess.length > 0 then
      match encodeAlternateAccess v.alternateAccess with
      | .error text => .error ("variable [" ++ toString i ++ "] alternate access: " ++ text)
      | .ok aaBytes =>
        .ok (encodeTLV tagVarSpecName nameBytes ++ encodeTLV tagAltAccessWrapper aaBytes)
    else .ok (encodeTLV tagVarSpecName nameBytes)

/-- The elements from number `i` on. -/
def encodeVariableSpecs : (i : Nat) → List VariableSpecWire → Except String Octets
  | _, [] => .ok []
  | i, v :: vars =>
    match encodeVariableSpec i v with
    | .error text => .error text
    | .ok seqContent =>
      match encodeVariableSpecs (i + 1) vars with
      | .error text => .error text
      | .ok inner => .ok (encodeTLV tagSequence seqContent ++ inner)

def encodeListOfVariableWithAccess (vars : List VariableSpecWire) : Except String Octets :=
  match encodeVariableSpecs 0 vars with
  | .error text => .error text
  | .ok inner => .ok (encodeTLV tagListOfVar inner)

/-! ## Decoding -/

/-- The alternate access after the name, which ends at `offset`. -/
def decodeAccess (data : Octets) (offset : Nat) :
    Except String (List AccessSelectorWire × Nat) :=
  if offset < data.length then
    match decodeTLVAt data offset with
    | .error text => .error ("alternate access: " ++ text)
    | .ok tlv =>
      if tlv.tag ≠ tagAltAccessWrapper then
        .error ("expected alternateAccess [5] (0xa5), got 0x" ++ hex02 tlv.tag)
      else
        match decodeAlternateAccess tlv.content with
        | .error text => .error ("alternate access: " ++ text)
        | .ok selectors => .ok (selectors, offset + tlv.consumed)
  else .ok ([], offset)

def decodeVariableSpecWire (data : Octets) : Except String VariableSpecWire :=
  match decodeTLVAt data 0 with
  | .error text => .error ("variableSpec: " ++ text)
  | .ok tlv =>
    if tlv.tag ≠ tagVarSpecName then
      .error ("variableSpec: expected name [0] (0xa0), got 0x" ++ hex02 tlv.tag)
    else
      match decodeObjectName tlv.content with
      | .error text => .error text
      | .ok name =>
        match decodeAccess data tlv.consumed with
        | .error text => .error text
        | .ok (selectors, offset) =>
          if offset ≠ data.length then
            .error (toString ((data.length : Int) - offset) ++
              " trailing bytes after variable spec")
          else .ok ⟨name, selectors⟩

/-- One pass of the loop of `decodeVarSpecListFull`. -/
def varSpecPass (data : Octets) (specs : List VariableSpecWire) (offset : Nat) :
    Except String (LoopStep (List VariableSpecWire)) :=
  match decodeTLVAt data offset with
  | .error text => .error ("varSpec [" ++ toString specs.length ++ "]: " ++ text)
  | .ok tlv =>
    if tlv.tag ≠ tagSequence then
      .error ("varSpec [" ++ toString specs.length ++ "]: expected SEQUENCE (0x30), got 0x" ++
        hex02 tlv.tag)
    else
      match decodeVariableSpecWire tlv.content with
      | .error text => .error ("varSpec [" ++ toString specs.length ++ "]: " ++ text)
      | .ok spec => .ok (.next (specs ++ [spec]) (offset + tlv.consumed))

def decodeVarSpecListFull (data : Octets) : Except String (List VariableSpecWire) :=
  match offsetLoop data.length (varSpecPass data) [] 0 with
  | .error text => .error text
  | .ok (specs, _) => .ok specs

/-! ## What arrives of a list -/

def VariableSpecWire.received (spec : VariableSpecWire) : VariableSpecWire :=
  ⟨spec.name.received, spec.alternateAccess.map AccessSelectorWire.received⟩

/-- The specification can be encoded. -/
structure VariableSpecWire.Sendable (spec : VariableSpecWire) : Prop where
  scope : spec.name.KnownScope
  selectors : ∀ sel ∈ spec.alternateAccess, sel.Sendable

section Lists

variable {v : VariableSpecWire} {vars : List VariableSpecWire}

variable {selectors : List AccessSelectorWire} {i : Nat}

/-- The part after the name, of a chain that was sent or of none. -/
theorem decodeAccess_encode (front : Octets) {octets : Octets} (fits : octets.length < maxContent)
    (decoded : decodeAlternateAccess octets = .ok selectors) :
    decodeAccess (front ++ encodeTLV tagAltAccessWrapper octets) front.length =
      .ok (selectors, (front ++ encodeTLV tagAltAccessWrapper octets).length) := by
  have read := decodeTLVAt_encodeTLV tagAltAccessWrapper fits front []
  have positive := two_le_tlvSize octets.length
  rw [List.append_nil] at read
  rw [decodeAccess, List.length_append, length_encodeTLV, if_pos (by omega)]
  simp only [read, ne_eq, not_true_eq_false, if_false, decoded]

/-- A name followed by what the access decoder takes to the end. -/
theorem decodeVariableSpecWire_of_access {nameBytes tail : Octets} {name : ObjectNameWire}
    (fits : nameBytes.length < maxContent) (named : decodeObjectName nameBytes = .ok name)
    (access : decodeAccess (encodeTLV tagVarSpecName nameBytes ++ tail)
        (encodeTLV tagVarSpecName nameBytes).length =
      .ok (selectors, (encodeTLV tagVarSpecName nameBytes ++ tail).length)) :
    decodeVariableSpecWire (encodeTLV tagVarSpecName nameBytes ++ tail) =
      .ok ⟨name, selectors⟩ := by
  have read := decodeTLVAt_first tagVarSpecName fits tail
  rw [length_encodeTLV] at access
  simp only [decodeVariableSpecWire, read, ne_eq, not_true_eq_false, if_false, named, access]

theorem decodeVariableSpecWire_encode (i : Nat) (sendable : v.Sendable) :
    ∃ seqContent, encodeVariableSpec i v = .ok seqContent ∧
      (seqContent.length < maxContent → decodeVariableSpecWire seqContent = .ok v.received) := by
  obtain ⟨nameBytes, named, nameArrives⟩ := decodeObjectName_encode sendable.scope
  have outer := length_le_encodeTLV tagVarSpecName nameBytes
  by_cases plain : v.alternateAccess = []
  · refine ⟨encodeTLV tagVarSpecName nameBytes, ?_, fun fits => ?_⟩
    · simp [encodeVariableSpec, named, plain]
    · have short := outer.trans_lt fits
      have access : decodeAccess (encodeTLV tagVarSpecName nameBytes ++ [])
          (encodeTLV tagVarSpecName nameBytes).length =
          .ok ([], (encodeTLV tagVarSpecName nameBytes ++ []).length) := by
        rw [List.append_nil, decodeAccess, if_neg (lt_irrefl _)]
      have decoded := decodeVariableSpecWire_of_access short (nameArrives short) access
      rwa [List.append_nil, ← List.map_nil, ← plain] at decoded
  · obtain ⟨aaBytes, encoded, chainArrives⟩ := decodeAlternateAccess_encode plain sendable.selectors
    refine ⟨encodeTLV tagVarSpecName nameBytes ++ encodeTLV tagAltAccessWrapper aaBytes, ?_,
      fun fits => ?_⟩
    · have some : v.alternateAccess.length > 0 := List.length_pos_of_ne_nil plain
      simp only [encodeVariableSpec, named, if_pos some, encoded]
    · have inner := length_le_encodeTLV tagAltAccessWrapper aaBytes
      rw [List.length_append] at fits
      have short : nameBytes.length < maxContent := by omega
      exact decodeVariableSpecWire_of_access short (nameArrives short)
        (decodeAccess_encode _ (by omega) (chainArrives (by omega)))

/-- The elements of a list one after another: each is a sequence that decodes to what arrives of
its specification. -/
theorem encodeVariableSpecs_eq (i : Nat) (sendable : ∀ v ∈ vars, v.Sendable) :
    ∃ items : List (VariableSpecWire × Octets), items.map Prod.fst = vars ∧
      encodeVariableSpecs i vars = .ok (items.flatMap fun item => encodeTLV tagSequence item.2) ∧
      ∀ item ∈ items, item.2.length < maxContent →
        decodeVariableSpecWire item.2 = .ok item.1.received := by
  induction vars generalizing i with
  | nil => exact ⟨[], rfl, rfl, by simp⟩
  | cons v vars ih =>
    obtain ⟨first, others⟩ := List.forall_mem_cons.mp sendable
    obtain ⟨seqContent, encoded, arrives⟩ := decodeVariableSpecWire_encode i first
    obtain ⟨items, listed, following, rest⟩ := ih (i + 1) others
    refine ⟨(v, seqContent) :: items, by rw [List.map_cons, listed], ?_,
      List.forall_mem_cons.mpr ⟨arrives, rest⟩⟩
    simp only [encodeVariableSpecs, encoded, following, List.flatMap_cons]

theorem decodeVarSpecListFull_encode (i : Nat) (sendable : ∀ v ∈ vars, v.Sendable) :
    ∃ inner, encodeVariableSpecs i vars = .ok inner ∧ (inner.length < maxContent →
      decodeVarSpecListFull inner = .ok (vars.map VariableSpecWire.received)) := by
  obtain ⟨items, listed, encoded, arrives⟩ := encodeVariableSpecs_eq i sendable
  refine ⟨_, encoded, fun fits => ?_⟩
  have loop := offsetLoop_collect (fun item => encodeTLV tagSequence item.2)
    (fun item : VariableSpecWire × Octets => item.1.received) varSpecPass items
    (fun front rest specs item member _ => ?_)
  · rw [decodeVarSpecListFull, loop, ← listed, List.map_map]
    rfl
  · have short := (length_le_encodeTLV tagSequence item.2).trans_lt
      ((length_le_flatMap member fun item => encodeTLV tagSequence item.2).trans_lt fits)
    refine ⟨?_, by simp [encodeTLV]⟩
    simp only [varSpecPass, decodeTLVAt_encodeTLV tagSequence short front rest, ne_eq,
      not_true_eq_false, if_false, arrives item member short, length_encodeTLV]

/-! ## Sending on what arrived -/

theorem encodeVariableSpec_received (i : Nat) (v : VariableSpecWire) :
    encodeVariableSpec i v.received = encodeVariableSpec i v := by
  simp only [encodeVariableSpec, VariableSpecWire.received, encodeObjectName_received,
    encodeAlternateAccess_received, List.length_map]

theorem encodeVariableSpecs_received (i : Nat) (vars : List VariableSpecWire) :
    encodeVariableSpecs i (vars.map VariableSpecWire.received) = encodeVariableSpecs i vars := by
  induction vars generalizing i with
  | nil => rfl
  | cons v vars ih =>
    simp only [List.map_cons, encodeVariableSpecs, encodeVariableSpec_received, ih]

theorem VariableSpecWire.received_received (v : VariableSpecWire) :
    v.received.received = v.received := by
  simp [received, ObjectNameWire.received_received, AccessSelectorWire.received_received,
    Function.comp_def]

/-- The component names of a specification are identifiers a decoder takes. -/
def VariableSpecWire.ShortComponents (v : VariableSpecWire) : Prop :=
  ∀ sel ∈ v.alternateAccess, sel.component.length ≤ maxIdentifierLen

/-- What arrives of a specification that was encoded can be encoded. -/
theorem VariableSpecWire.sendable_received {seqContent : Octets}
    (encoded : encodeVariableSpec i v = .ok seqContent) (short : v.ShortComponents) :
    v.received.Sendable := by
  unfold encodeVariableSpec at encoded
  split at encoded
  · cases encoded
  rename_i nameBytes named
  refine ⟨knownScope_received (knownScope_of_encode named), ?_⟩
  split at encoded
  · split at encoded
    · cases encoded
    rename_i chain
    exact List.forall_mem_map.mpr fun sel member =>
      sendable_received_of_encode chain member (short sel member)
  rename_i none
  have empty : v.alternateAccess = [] := List.length_eq_zero_iff.mp (Nat.eq_zero_of_not_pos none)
  simp [received, empty]

theorem sendable_received_of_encodeVariableSpecs {inner : Octets}
    (encoded : encodeVariableSpecs i vars = .ok inner) (short : ∀ v ∈ vars, v.ShortComponents) :
    ∀ v ∈ vars.map VariableSpecWire.received, v.Sendable := by
  induction vars generalizing i inner with
  | nil => simp
  | cons v vars ih =>
    obtain ⟨first, others⟩ := List.forall_mem_cons.mp short
    unfold encodeVariableSpecs at encoded
    split at encoded
    · cases encoded
    rename_i seqContent own
    split at encoded
    · cases encoded
    rename_i rest following
    exact List.forall_mem_cons.mpr ⟨v.sendable_received own first, ih following others⟩

end Lists

/-! ## What the decoder accepts -/

section Accepted

variable {data : Octets}

variable {offset : Nat} {specs : List VariableSpecWire}

theorem decodeAccess_sendable {last : Nat} {selectors : List AccessSelectorWire}
    (decoded : decodeAccess data offset = .ok (selectors, last)) :
    ∀ sel ∈ selectors, sel.Sendable := by
  unfold decodeAccess at decoded
  split at decoded
  · split at decoded
    · cases decoded
    · split at decoded
      · cases decoded
      · split at decoded
        · cases decoded
        rename_i chain accepted
        cases decoded
        exact decodeAlternateAccess_sendable accepted
  · cases decoded
    simp

/-- An accepted specification leads with a name. -/
theorem decodeVariableSpecWire_ok {spec : VariableSpecWire}
    (decoded : decodeVariableSpecWire data = .ok spec) :
    ∃ tlv, decodeTLVAt data 0 = .ok tlv ∧ tlv.tag = tagVarSpecName ∧
      decodeObjectName tlv.content = .ok spec.name ∧
      decodeAccess data tlv.consumed = .ok (spec.alternateAccess, data.length) := by
  unfold decodeVariableSpecWire at decoded
  split at decoded
  · cases decoded
  rename_i tlv read
  split at decoded
  · cases decoded
  rename_i tagged
  split at decoded
  · cases decoded
  rename_i name named
  split at decoded
  · cases decoded
  rename_i selectors offset access
  split_ifs at decoded with trailing
  cases decoded
  exact ⟨tlv, read, not_not.mp tagged, named, by rw [access, not_not.mp trailing]⟩

theorem varSpecPass_ok {step : LoopStep (List VariableSpecWire)}
    (pass : varSpecPass data specs offset = .ok step) :
    ∃ tlv spec, decodeTLVAt data offset = .ok tlv ∧
      (tlv.tag = tagSequence ∧ decodeVariableSpecWire tlv.content = .ok spec) ∧
      step = .next (specs ++ [spec]) (offset + tlv.consumed) := by
  unfold varSpecPass at pass
  split at pass
  · cases pass
  rename_i tlv read
  split at pass
  · cases pass
  rename_i tagged
  split at pass
  · cases pass
  rename_i spec accepted
  cases pass
  exact ⟨tlv, spec, read, ⟨not_not.mp tagged, accepted⟩, rfl⟩

/-- An accepted list consists of specifications. -/
theorem decodeVarSpecListFull_ok (decoded : decodeVarSpecListFull data = .ok specs) :
    ∃ records, recordsOf data = .ok records ∧
      List.Forall₂ (fun record spec => record.1 = tagSequence ∧
        decodeVariableSpecWire record.2 = .ok spec) records specs := by
  unfold decodeVarSpecListFull at decoded
  split at decoded
  · cases decoded
  rename_i done
  cases decoded
  obtain ⟨records, values, divides, rfl, each⟩ := divides_of_offsetLoop
    (fun tag content spec => tag = tagSequence ∧ decodeVariableSpecWire content = .ok spec)
    (fun specs offset step pass => varSpecPass_ok pass) done
  exact ⟨records, recordsOf_eq_ok_iff.mpr ⟨_, divides⟩, each⟩

/-- A list that is accepted can be sent. -/
theorem decodeVarSpecListFull_sendable (decoded : decodeVarSpecListFull data = .ok specs) :
    ∀ spec ∈ specs, spec.Sendable := by
  obtain ⟨records, -, each⟩ := decodeVarSpecListFull_ok decoded
  intro spec member
  obtain ⟨record, -, -, accepted⟩ := Tracing.exists_of_forall₂_right each member
  obtain ⟨tlv, -, -, named, access⟩ := decodeVariableSpecWire_ok accepted
  exact ⟨decodeObjectName_knownScope named, decodeAccess_sendable access⟩

end Accepted

end GoMms.Pdu
