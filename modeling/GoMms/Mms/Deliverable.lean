import GoMms.Mms.Value

/-!
# Values that reach the wire

A value is delivered in two stages: `valueToDataValue` converts it and `MarshalData` encodes the
result. Both look only at the leaves. A value may pass the first stage and fail the second, which
is where a text that is not UTF-8, a time out of range or an invalid object identifier is found.
-/

namespace GoMms.Mms

open Berutil Pdu

mutual

/-- The leaves of the tree. -/
def Value.leaves : Value → List Value
  | .array elements => leavesBelow elements
  | .struct elements => leavesBelow elements
  | leaf => [leaf]

def leavesBelow : List Value → List Value
  | [] => []
  | value :: rest => value.leaves ++ leavesBelow rest

end

/-- The conversion accepts the leaf. -/
def Value.Convertible : Value → Prop
  | .nil | .dataAccessError _ => False
  | _ => True

/-- The leaf has an encoding, if it is convertible. -/
def Value.Expressible : Value → Prop
  | .mmsString text => utf8Valid text = true
  | .utcTime time _ => time.isZero = true ∨ 0 ≤ time.unix ∧ time.unix ≤ 4294967295
  | .binaryTime msEpoch => BinaryTimeRange msEpoch
  | .objectIdentifier oid => IsObjectIdentifier oid
  | _ => True

/-- A bit string or a boolean array is converted from nothing but itself. -/
theorem dataValueToValue_bits (decoded : DataValue) (bits : Octets) (bitLen : Int64) :
    (dataValueToValue decoded = .ok (.bitString bits bitLen) → decoded = .bitString bits bitLen) ∧
      (dataValueToValue decoded = .ok (.booleanArray bits bitLen) →
        decoded = .booleanArray bits bitLen) := by
  cases decoded with
  | array | struct | accessError =>
    simp only [dataValueToValue]
    split <;> simp
  | _ => simp [dataValueToValue]

section Stages

variable {runtime : Runtime}

theorem mem_leavesBelow_iff {leaf : Value} {values : List Value} :
    leaf ∈ leavesBelow values ↔ ∃ value ∈ values, leaf ∈ value.leaves := by
  induction values with
  | nil => simp [leavesBelow]
  | cons value rest ih => simp [leavesBelow, ih]

theorem leaves_composite (kind : Composite) (values : List Value) :
    (kind.value values).leaves = leavesBelow values := by
  cases kind <;> rw [Composite.value, Value.leaves]

variable {value : Value} {dv : DataValue}

theorem leaves_leaf (leaf : value.IsLeaf) : value.leaves = [value] := by
  cases value with
  | nil | array | struct => exact leaf.elim
  | _ => rfl

/-- What holds of the leaves of a composite holds of those of its elements. -/
theorem forall_leaves_composite {kind : Composite} {values : List Value} {P : Value → Prop} :
    (∀ leaf ∈ (kind.value values).leaves, P leaf) ↔
      ∀ value ∈ values, ∀ leaf ∈ value.leaves, P leaf := by
  simp only [leaves_composite, mem_leavesBelow_iff]
  exact ⟨fun all value known leaf member => all leaf ⟨value, known, member⟩,
    fun all leaf ⟨value, known, member⟩ => all value known leaf member⟩

/-- The first stage: no leaf is nil or an access error. -/
theorem valueToDataValue_ok_iff (value : Value) :
    (∃ dv, valueToDataValue runtime value = .ok dv) ↔ ∀ leaf ∈ value.leaves, leaf.Convertible := by
  induction value using Value.induction_elements with
  | nil => simp [valueToDataValue, Value.leaves, Value.Convertible]
  | leaf value leaf =>
    cases value with
    | nil | array | struct => exact leaf.elim
    | _ => simp [valueToDataValue, Value.leaves, Value.Convertible]
  | composite kind values ih =>
    rw [forall_leaves_composite, ← forall₂_congr ih, ← Tracing.exists_forall₂_iff]
    simp only [valueToDataValue_composite]
    constructor
    · rintro ⟨_, dvs, paired, -⟩
      exact ⟨dvs, paired⟩
    · rintro ⟨dvs, paired⟩
      exact ⟨_, dvs, paired, rfl⟩

theorem encodeUTCTime_ok_iff (time : Instant) (quality : UInt8) :
    (∃ octets, encodeUTCTime runtime time quality = .ok octets) ↔
      (Value.utcTime time quality).Expressible := by
  simp only [encodeUTCTime, Value.Expressible]
  by_cases zero : time.isZero = true
  · simp [zero, Instant.ofUnix]
  · simp only [zero, if_false, false_or, Bool.false_eq_true]
    split
    · next outside => simp; omega
    · next inside => simp; omega

theorem marshalContent_leaf_ok_iff (leaf : value.IsLeaf)
    (converted : valueToDataValue runtime value = .ok dv) :
    (∃ content, marshalContent runtime dv = .ok content) ↔ value.Expressible := by
  cases value with
  | nil | array | struct => exact leaf.elim
  | dataAccessError => cases converted
  | utcTime time quality =>
    cases converted
    rw [marshalContent, encodeUTCTime_ok_iff]
  | binaryTime msEpoch =>
    cases converted
    simp [marshalContent, encodeBinaryTimeChecked_ok_iff, Value.Expressible]
  | objectIdentifier oid =>
    cases converted
    have accepted := encodeObjectIdentifier_ok_iff oid
    simp only [marshalContent, Value.Expressible, ← accepted]
    cases encodeObjectIdentifier oid <;> simp
  | mmsString text =>
    cases converted
    cases valid : utf8Valid text <;> simp [marshalContent, Value.Expressible, valid]
  | _ =>
    cases converted
    simp [marshalContent, Value.Expressible]

theorem marshalDataList_ok_iff (dvs : List DataValue) :
    (∃ content, marshalDataList runtime dvs = .ok content) ↔
      ∀ dv ∈ dvs, ∃ content, marshalContent runtime dv = .ok content := by
  induction dvs with
  | nil => simp [marshalDataList]
  | cons dv rest ih =>
    rw [List.forall_mem_cons, ← ih, marshalDataList]
    cases marshalContent runtime dv <;> cases marshalDataList runtime rest <;> simp

/-- The second stage, of a value that was converted: every leaf has an encoding. -/
theorem marshalContent_ok_iff (value : Value)
    (converted : valueToDataValue runtime value = .ok dv) :
    (∃ content, marshalContent runtime dv = .ok content) ↔
      ∀ leaf ∈ value.leaves, leaf.Expressible := by
  induction value using Value.induction_elements generalizing dv with
  | nil => cases converted
  | leaf value leaf =>
    rw [leaves_leaf leaf, List.forall_mem_singleton]
    exact marshalContent_leaf_ok_iff leaf converted
  | composite kind values ih =>
    obtain ⟨dvs, paired, rfl⟩ := valueToDataValue_composite.mp converted
    have list : marshalContent runtime (kind.data dvs) = marshalDataList runtime dvs := by
      cases kind <;> rw [Composite.data, marshalContent]
    rw [list, marshalDataList_ok_iff, forall_leaves_composite]
    exact (Tracing.forall_mem_iff_of_forall₂ paired
      fun value known dv here => (ih value known here).symm).symm

theorem marshalData_ok_iff (converted : valueToDataValue runtime value = .ok dv) :
    (∃ wire, marshalData runtime dv = .ok wire) ↔ ∀ leaf ∈ value.leaves, leaf.Expressible := by
  rw [← marshalContent_ok_iff value converted, marshalData]
  cases marshalContent runtime dv <;> simp

/-- What was converted for the wire converts back into the same value. -/
theorem dataValueToValue_valueToDataValue (value : Value)
    (converted : valueToDataValue runtime value = .ok dv) : dataValueToValue dv = .ok value := by
  induction value using Value.induction_elements generalizing dv with
  | nil => cases converted
  | leaf value leaf =>
    cases value with
    | nil | array | struct => exact leaf.elim
    | dataAccessError => cases converted
    | _ => cases converted; rfl
  | composite kind values ih =>
    obtain ⟨dvs, paired, rfl⟩ := valueToDataValue_composite.mp converted
    refine dataValueToValue_composite.mpr ⟨values, ?_, rfl⟩
    exact (Tracing.forall₂_imp_of_mem paired fun value known dv => ih value known).flip

/-- The nodes of a converted tree other than containers are its converted leaves. -/
theorem exists_leaf_of_node (value : Value) {node : DataValue}
    (converted : valueToDataValue runtime value = .ok dv) (member : node ∈ dv.nodes)
    (single : ¬node.IsContainer) :
    ∃ leaf ∈ value.leaves, valueToDataValue runtime leaf = .ok node := by
  induction value using Value.induction_elements generalizing dv with
  | nil => cases converted
  | leaf value leaf =>
    have own : dv.nodes = [dv] := by
      cases value with
      | nil | array | struct => exact leaf.elim
      | dataAccessError => cases converted
      | _ => cases converted; rfl
    rw [own, List.mem_singleton] at member
    rw [leaves_leaf leaf, member]
    exact ⟨value, List.mem_singleton_self _, converted⟩
  | composite kind values ih =>
    obtain ⟨dvs, paired, rfl⟩ := valueToDataValue_composite.mp converted
    have deeper : node ∈ DataValue.nodesBelow dvs := by
      cases kind <;> exact (List.mem_cons.mp member).resolve_left
        fun same => single (same ▸ trivial)
    obtain ⟨child, among, inside⟩ := DataValue.exists_child_of_mem_nodesBelow deeper
    obtain ⟨value, known, here⟩ := Tracing.exists_of_forall₂_right paired among
    obtain ⟨leaf, found, same⟩ := ih value known here inside
    rw [leaves_composite]
    exact ⟨leaf, mem_leavesBelow_iff.mpr ⟨value, known, found⟩, same⟩

/-! ## Bit strings of any claimed length -/

def newBitStringWithLength (bits : Octets) (bitLen : Int64) : Value := .bitString bits bitLen

def newBooleanArray (bits : Octets) (bitLen : Int64) : Value := .booleanArray bits bitLen

/-- Both kinds are written with one content and read by one decoder. -/
private theorem bits_delivered {element : Octets → Int64 → DataValue}
    (kind : element = .bitString ∨ element = .booleanArray) (bits : Octets) (bitLen : Int64) :
    ∃ wire, marshalData runtime (element bits bitLen) = .ok wire ∧
      (bits.length + 1 < maxContent → unmarshalDataElement runtime wire 0 =
        .ok (element bits (sentBits bits bitLen), wire.length)) ∧
      ∀ consumed, unmarshalDataElement runtime wire 0 = .ok (element bits bitLen, consumed) →
        bits.length + 1 < maxContent := by
  have content : marshalContent runtime (element bits bitLen) =
      .ok (encodeBitString bits bitLen) := by
    rcases kind with rfl | rfl <;> simp only [marshalContent]
  refine ⟨encodeTLV (element bits bitLen).tag (encodeBitString bits bitLen), ?_, ?_, ?_⟩
  · simp only [marshalData, content]
  · intro fits
    have read := decodeTLVAt_alone (element bits bitLen).tag
      ((length_encodeBitString bits bitLen).trans_lt fits)
    simp only [unmarshalDataElement, unmarshalDataElementWithDepth, read, length_encodeTLV]
    have bitsRead := decodeBitString_encodeBitString_eq bits bitLen
    rcases kind with rfl | rfl <;> simp only [DataValue.tag, decodeDataContent, bitsRead]
  · -- the decoder takes no content longer than its three length octets can carry
    intro consumed accepted
    have writable : ∀ node ∈ (element bits bitLen).nodes, node.Writable := by
      rcases kind with rfl | rfl <;> simp [DataValue.nodes, DataValue.Writable, DataValue.Plain]
    have short := (unmarshalDataElementWithDepth_ok accepted writable).content_lt _
      (DataValue.mem_nodes_self _) _ content
    rwa [length_encodeBitString] at short

/-- **Which bit strings arrive unaltered.** Every bit string and boolean array of the public API is
written without an error. It is read back as the same value exactly when its octets hold the
claimed number of bits, with fewer than eight to spare, and the peer accepts so many octets; in
any other case that the peer accepts, it finds the same octets with another number of bits. -/
theorem bits_unaltered_iff (runtime : Runtime) {make : Octets → Int64 → Value}
    (kind : make = newBitStringWithLength ∨ make = newBooleanArray) (bits : Octets)
    (bitLen : Int64) :
    ∃ element wire, valueToDataValue runtime (make bits bitLen) = .ok element ∧
      marshalData runtime element = .ok wire ∧
      ((∃ decoded consumed, unmarshalDataElement runtime wire 0 = .ok (decoded, consumed) ∧
        dataValueToValue decoded = .ok (make bits bitLen)) ↔
          WholeBits bits bitLen ∧ bits.length + 1 < maxContent) ∧
      (bits.length + 1 < maxContent → ∃ decoded consumed,
        unmarshalDataElement runtime wire 0 = .ok (decoded, consumed) ∧
        dataValueToValue decoded = .ok (make bits (sentBits bits bitLen))) := by
  obtain ⟨element, sort, there, back, exact⟩ : ∃ element : Octets → Int64 → DataValue,
      (element = .bitString ∨ element = .booleanArray) ∧
      (∀ bits bitLen, valueToDataValue runtime (make bits bitLen) = .ok (element bits bitLen)) ∧
      (∀ bits bitLen, dataValueToValue (element bits bitLen) = .ok (make bits bitLen)) ∧
      ∀ decoded bits bitLen, dataValueToValue decoded = .ok (make bits bitLen) →
        decoded = element bits bitLen := by
    rcases kind with rfl | rfl
    · exact ⟨.bitString, .inl rfl, fun _ _ => rfl, fun _ _ => rfl,
        fun decoded bits bitLen => (dataValueToValue_bits decoded bits bitLen).1⟩
    · exact ⟨.booleanArray, .inr rfl, fun _ _ => rfl, fun _ _ => rfl,
        fun decoded bits bitLen => (dataValueToValue_bits decoded bits bitLen).2⟩
  obtain ⟨wire, written, arrives, accepted⟩ := @bits_delivered runtime _ sort bits bitLen
  refine ⟨_, wire, there bits bitLen, written, ⟨?_, ?_⟩, fun fits => ?_⟩
  · rintro ⟨decoded, consumed, read, same⟩
    rw [exact decoded bits bitLen same] at read
    have fits := accepted consumed read
    have machine : bits.length < 2 ^ 60 := by
      simp only [maxContent] at fits
      omega
    rw [arrives fits] at read
    refine ⟨(sentBits_eq_iff machine bitLen).mp ?_, fits⟩
    rcases sort with rfl | rfl <;> simp only [Except.ok.injEq, Prod.mk.injEq] at read
    · exact (DataValue.bitString.inj read.1).2
    · exact (DataValue.booleanArray.inj read.1).2
  · rintro ⟨whole, fits⟩
    have read := arrives fits
    rw [sentBits_of_whole whole] at read
    exact ⟨_, _, read, back bits bitLen⟩
  · exact ⟨_, _, arrives fits, back bits _⟩

theorem bits_unaltered_nine :
    ∃ decoded consumed, unmarshalDataElement default [0x84, 0x03, 0x07, 0xff, 0x80] 0 =
        .ok (decoded, consumed) ∧
      dataValueToValue decoded = .ok (newBitStringWithLength [0xff, 0x80] 9) := by
  obtain ⟨element, wire, converted, written, same, -⟩ :=
    bits_unaltered_iff default (.inl rfl) [0xff, 0x80] 9
  cases converted
  have octets : wire = [0x84, 0x03, 0x07, 0xff, 0x80] := by
    refine Except.ok.inj (written.symm.trans ?_)
    decide +kernel
  rw [← octets]
  exact same.mpr ⟨.inr ⟨by simp, by decide, by decide⟩, by decide⟩

/-- Three bits in two octets arrive as eleven bits, and a length without octets is lost. -/
theorem bits_altered :
    (∃ element, valueToDataValue default (newBitStringWithLength [0xff, 0xff] 3) = .ok element ∧
      marshalData default element = .ok [0x84, 0x03, 0x05, 0xff, 0xff] ∧
      unmarshalDataElement default [0x84, 0x03, 0x05, 0xff, 0xff] 0 =
        .ok (.bitString [0xff, 0xff] 11, 5)) ∧
    ∃ element, valueToDataValue default (newBooleanArray [] 5) = .ok element ∧
      marshalData default element = .ok [0x8e, 0x01, 0x00] ∧
      unmarshalDataElement default [0x8e, 0x01, 0x00] 0 = .ok (.booleanArray [] 0, 3) := by
  refine ⟨⟨.bitString [0xff, 0xff] 3, rfl, by decide +kernel, ?_⟩, .booleanArray [] 5, rfl,
    by decide +kernel, ?_⟩
  · with_unfolding_all rfl
  · with_unfolding_all rfl

end Stages

end GoMms.Mms
