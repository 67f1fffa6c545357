import GoMms.Mms.DefaultValue

/-!
# Default values fit

For a type with sound counts and sizes the default value fits the type at every level and reaches
the wire (`defaultValue_fits`); it is nil only where a type without values is reached. All of it
rests on one case analysis of `DefaultValue` and on what is known of the leaf types.
-/

namespace GoMms.Mms

open Berutil Pdu

namespace TypeSpec

/-- The types of the elements of a value, one by one. -/
def parts (ts : TypeSpec) : List TypeSpec :=
  match ts.type with
  | .struct => ts.elements.map Prod.snd
  | .array =>
    match ts.element with
    | none => []
    | some element => List.replicate ts.count.toInt.toNat element
  | _ => []

variable {ts : TypeSpec} {value : Value}

theorem parts_subset_children {part : TypeSpec} (known : part ∈ ts.parts) : part ∈ ts.children := by
  unfold parts at known
  unfold children
  split at known
  · next type => rwa [type]
  · rename_i type
    rw [type]
    split at known
    · cases known
    rename_i element typed
    rw [List.eq_of_mem_replicate known]
    exact Option.mem_toList.mpr typed
  · cases known

/-- The types that a value of the type has a node for. -/
inductive Reaches : TypeSpec → TypeSpec → Prop
  | refl (ts : TypeSpec) : Reaches ts ts
  | part {ts part node : TypeSpec} (known : part ∈ ts.parts) (below : Reaches part node) :
      Reaches ts node

/-- Types without values: a reference to a named type, and an access error. -/
def Unsupported (ts : TypeSpec) : Prop := ts.type = .dataAccessError ∨ ts.type = .namedType

/-- The count of an array is not negative, an array with elements has an element type, and the
size is below `2 ^ 31`. -/
def Sound (ts : TypeSpec) : Prop :=
  (ts.type = .array → 0 ≤ ts.count.toInt ∧ (ts.count ≠ 0 → ts.element ≠ none)) ∧
    ts.size.toInt < 2 ^ 31

mutual

/-- `ShallowCompatible` at every level. -/
def deepCompatible : TypeSpec → Value → Bool
  | ts, .array elements =>
    ts.shallowCompatible (.array elements) && partsCompatible ts.parts elements
  | ts, .struct elements =>
    ts.shallowCompatible (.struct elements) && partsCompatible ts.parts elements
  | ts, leaf => ts.shallowCompatible leaf

/-- Element by element; there are as many values as types. -/
def partsCompatible : List TypeSpec → List Value → Bool
  | [], [] => true
  | type :: types, value :: values => type.deepCompatible value && partsCompatible types values
  | _, _ => false

end

theorem partsCompatible_of_forall₂ {types : List TypeSpec} {values : List Value}
    (each : List.Forall₂ (fun type value => type.deepCompatible value = true) types values) :
    partsCompatible types values = true := by
  induction each with
  | nil => rfl
  | cons first _ ih => rw [partsCompatible, first, ih, Bool.and_self]

/-- A value of this shape is a leaf. -/
def IsLeaf (ts : TypeSpec) : Prop := ts.type ≠ .struct ∧ ts.type ≠ .array

theorem defaultValue_array (array : ts.type = .array) (sound : ts.Sound)
    (made : ts.defaultValue = .ok value) :
    (value = .nil ∧ ∃ part ∈ ts.parts, part.defaultValue = .ok .nil) ∨
    ∃ values, value = .array values ∧
      List.Forall₂ (fun part value => part.defaultValue = .ok value ∧ value ≠ .nil) ts.parts
        values ∧ (values.length : Int) = ts.count.toInt := by
  obtain ⟨type, elements, count, element, size, formatWidth, exponentWidth, typeName⟩ := ts
  obtain rfl : type = .array := array
  obtain ⟨-, typed⟩ := sound.1 rfl
  cases element with
  | none =>
    obtain rfl : count = 0 := by
      by_contra nonzero
      exact typed nonzero rfl
    rw [defaultValue] at made
    cases made
    exact .inr ⟨[], rfl, .nil, rfl⟩
  | some element =>
    rw [defaultValue] at made
    split_ifs at made with zero
    · subst zero
      cases made
      exact .inr ⟨[], rfl, .nil, rfl⟩
    · cases allocated : makeLength 8 count with
      | error fault => rw [allocated] at made; cases made
      | ok length =>
        obtain ⟨-, -, same⟩ := makeLength_ok_iff.mp allocated
        have types : parts ⟨.array, elements, count, some element, size, formatWidth,
            exponentWidth, typeName⟩ = List.replicate length element := by
          rw [parts, ← same, Int.toNat_natCast]
        rw [allocated] at made
        dsimp only at made
        rw [← List.map_replicate] at made
        rw [types]
        rcases compositeOf_ok made with ⟨rfl, missing⟩ | ⟨values, rfl, each⟩
        · obtain ⟨part, known, absent⟩ := List.mem_map.mp missing
          exact .inl ⟨rfl, part, known, absent⟩
        · refine .inr ⟨values, rfl, List.forall₂_map_left_iff.mp each, ?_⟩
          have filled := each.length_eq
          rw [List.length_map, List.length_replicate] at filled
          rw [← filled, same]

/-- The octets of a default bit string hold exactly its size. -/
theorem defaultValue_bitString (bitString : ts.type = .bitString) (sound : ts.Sound)
    (made : ts.defaultValue = .ok value) :
    ∃ bits bitLen, value = .bitString bits bitLen ∧ WholeBits bits bitLen := by
  obtain ⟨type, elements, count, element, size, formatWidth, exponentWidth, typeName⟩ := ts
  obtain rfl : type = .bitString := bitString
  rw [defaultValue] at made
  split_ifs at made with sized
  · have positive : 0 < size.toInt := Int64.lt_iff_toInt_lt.mp sized
    have octets := sizeOctets_toInt positive sound.2
    cases allocated : makeLength 1 ((size + 7) / 8) with
    | error fault => rw [allocated] at made; cases made
    | ok length =>
      obtain ⟨-, -, same⟩ := makeLength_ok_iff.mp allocated
      rw [allocated] at made
      cases made
      refine ⟨_, _, rfl, .inr ⟨?_, ?_, ?_⟩⟩
      · rw [Ne, List.replicate_eq_nil_iff]
        omega
      · rw [List.length_replicate]
        omega
      · rw [List.length_replicate]
        omega
  · cases made
    exact ⟨_, _, rfl, .inl ⟨rfl, rfl⟩⟩

/-- What `DefaultValue` makes of a type: nil if there is no value for it or for one of its parts,
a composite of the values of its parts, or a leaf. -/
theorem defaultValue_cases (sound : ts.Sound) (made : ts.defaultValue = .ok value) :
    (value = .nil ∧ (ts.Unsupported ∨ ∃ part ∈ ts.parts, part.defaultValue = .ok .nil)) ∨
    (∃ values, (ts.type = .struct ∧ value = .struct values ∨
        ts.type = .array ∧ value = .array values) ∧
      List.Forall₂ (fun part value => part.defaultValue = .ok value ∧ value ≠ .nil) ts.parts
        values ∧ ts.shallowCompatible value = true) ∨
    (ts.IsLeaf ∧ value.leaves = [value] ∧ value ≠ .nil ∧ ts.deepCompatible value = true) := by
  obtain ⟨type, elements, count, element, size, formatWidth, exponentWidth, typeName⟩ := ts
  cases type with
  | dataAccessError =>
    rw [defaultValue] at made
    cases made
    exact .inl ⟨rfl, .inl (.inl rfl)⟩
  | namedType =>
    rw [defaultValue] at made
    cases made
    exact .inl ⟨rfl, .inl (.inr rfl)⟩
  | struct =>
    rw [defaultValue, defaultElements_eq] at made
    rcases compositeOf_ok made with ⟨rfl, missing⟩ | ⟨values, rfl, each⟩
    · obtain ⟨part, known, absent⟩ := List.mem_map.mp missing
      exact .inl ⟨rfl, .inr ⟨part, known, absent⟩⟩
    · refine .inr (.inl ⟨values, .inl ⟨rfl, rfl⟩, List.forall₂_map_left_iff.mp each, ?_⟩)
      have length := each.length_eq
      rw [List.length_map, List.length_map] at length
      simp [shallowCompatible, Value.type, length]
  | array =>
    rcases defaultValue_array rfl sound made with ⟨rfl, missing⟩ | ⟨values, rfl, each, length⟩
    · exact .inl ⟨rfl, .inr missing⟩
    · refine .inr (.inl ⟨values, .inr ⟨rfl, rfl⟩, each, ?_⟩)
      simp [shallowCompatible, Value.type, length]
  | bitString =>
    obtain ⟨bits, bitLen, rfl, -⟩ := defaultValue_bitString rfl sound made
    exact .inr (.inr ⟨⟨by rintro ⟨⟩, by rintro ⟨⟩⟩, rfl, by rintro ⟨⟩, rfl⟩)
  | _ =>
    rw [defaultValue] at made
    cases made
    exact .inr (.inr ⟨⟨by rintro ⟨⟩, by rintro ⟨⟩⟩, rfl, by rintro ⟨⟩, rfl⟩)

section Defaults

variable {ts : TypeSpec} {value : Value}

/-- There is no value only where a type without values is reached. -/
theorem unsupported_of_nil (sound : ∀ depth, ∀ node ∈ ts.nodesAt depth, node.Sound)
    (made : ts.defaultValue = .ok .nil) : ∃ node, ts.Reaches node ∧ node.Unsupported := by
  induction ts using induction_children with
  | step ts ih =>
    obtain ⟨root, below⟩ := forall_nodesAt_iff.mp sound
    rcases defaultValue_cases root made with ⟨-, here | ⟨part, known, absent⟩⟩ |
      ⟨values, ⟨-, same⟩ | ⟨-, same⟩, -⟩ | ⟨-, -, present, -⟩
    · exact ⟨ts, .refl ts, here⟩
    · have child := parts_subset_children known
      obtain ⟨node, reached, unsupported⟩ := ih part child (below part child) absent
      exact ⟨node, .part known reached, unsupported⟩
    · cases same
    · cases same
    · exact (present rfl).elim

theorem deepCompatible_defaultValue (sound : ∀ depth, ∀ node ∈ ts.nodesAt depth, node.Sound)
    (made : ts.defaultValue = .ok value) (present : value ≠ .nil) :
    ts.deepCompatible value = true := by
  induction ts using induction_children generalizing value with
  | step ts ih =>
    obtain ⟨root, below⟩ := forall_nodesAt_iff.mp sound
    rcases defaultValue_cases root made with ⟨absent, -⟩ | ⟨values, kind, each, shallow⟩ |
      ⟨-, -, -, fits⟩
    · exact (present absent).elim
    · have parts : partsCompatible ts.parts values = true := by
        refine partsCompatible_of_forall₂ (List.forall₂_iff_zip.mpr ⟨each.length_eq, ?_⟩)
        intro part value paired
        have child := parts_subset_children (List.of_mem_zip paired).1
        obtain ⟨below_made, below_present⟩ := (List.forall₂_iff_zip.mp each).2 paired
        exact ih part child (below part child) below_made below_present
      rcases kind with ⟨-, rfl⟩ | ⟨-, rfl⟩
      all_goals rw [deepCompatible, shallow, parts, Bool.and_self]
    · exact fits

/-- Every leaf of a default value is the default value of a leaf of the type. -/
theorem exists_leafType (sound : ∀ depth, ∀ node ∈ ts.nodesAt depth, node.Sound)
    (made : ts.defaultValue = .ok value) (present : value ≠ .nil) {leaf : Value}
    (member : leaf ∈ value.leaves) :
    ∃ depth, ∃ node ∈ ts.nodesAt depth, node.IsLeaf ∧ node.defaultValue = .ok leaf ∧
      leaf ≠ .nil := by
  induction ts using induction_children generalizing value with
  | step ts ih =>
    obtain ⟨root, below⟩ := forall_nodesAt_iff.mp sound
    rcases defaultValue_cases root made with ⟨absent, -⟩ | ⟨values, kind, each, -⟩ |
      ⟨single, leaves, -, -⟩
    · exact (present absent).elim
    · have inside : leaf ∈ leavesBelow values := by
        rcases kind with ⟨-, rfl⟩ | ⟨-, rfl⟩
        all_goals exact member
      obtain ⟨value, known, deeper⟩ := mem_leavesBelow_iff.mp inside
      obtain ⟨part, typed, below_made, below_present⟩ := Tracing.exists_of_forall₂_right each known
      have child := parts_subset_children typed
      obtain ⟨depth, node, found, facts⟩ :=
        ih part child (below part child) below_made below_present deeper
      exact ⟨depth + 1, node, List.mem_flatMap.mpr ⟨part, child, found⟩, facts⟩
    · rw [leaves, List.mem_singleton] at member
      subst member
      exact ⟨0, ts, List.mem_singleton_self ts, single, made, present⟩

/-- Types whose text or rounding is the platform's. -/
def PlatformDependent (ts : TypeSpec) : Prop :=
  ts.type = .float ∨ ts.type = .real ∨ ts.type = .generalizedTime

/-- The default values of leaf types have an encoding, which is read back. -/
theorem leaf_delivered (runtime : Runtime) (single : ts.IsLeaf) (sound : ts.Sound)
    (made : ts.defaultValue = .ok value) (present : value ≠ .nil) :
    value.Convertible ∧ value.Expressible ∧
      (¬ts.PlatformDependent → ∀ dv, valueToDataValue runtime value = .ok dv →
        dv.Admissible CodableOid) := by
  obtain ⟨type, elements, count, element, size, formatWidth, exponentWidth, typeName⟩ := ts
  cases type with
  | struct => exact (single.1 rfl).elim
  | array => exact (single.2 rfl).elim
  | dataAccessError | namedType =>
    rw [defaultValue] at made
    cases made
    exact (present rfl).elim
  | float =>
    rw [defaultValue] at made
    cases made
    exact ⟨trivial, trivial, fun plain => (plain (.inl rfl)).elim⟩
  | real =>
    rw [defaultValue] at made
    cases made
    exact ⟨trivial, trivial, fun plain => (plain (.inr (.inl rfl))).elim⟩
  | generalizedTime =>
    rw [defaultValue] at made
    cases made
    exact ⟨trivial, trivial, fun plain => (plain (.inr (.inr rfl))).elim⟩
  | bitString =>
    obtain ⟨bits, bitLen, rfl, whole⟩ := defaultValue_bitString rfl sound made
    refine ⟨trivial, trivial, fun _ dv converted => ?_⟩
    cases converted
    exact whole
  | booleanArray =>
    rw [defaultValue] at made
    cases made
    refine ⟨trivial, trivial, fun _ dv converted => ?_⟩
    cases converted
    exact .inl ⟨rfl, rfl⟩
  | mmsString =>
    rw [defaultValue] at made
    cases made
    refine ⟨trivial, rfl, fun _ dv converted => ?_⟩
    cases converted
    rfl
  | utcTime =>
    rw [defaultValue] at made
    cases made
    refine ⟨trivial, .inr (by decide), fun _ dv converted => ?_⟩
    cases converted
    exact ⟨List.replicate 8 0, 0, rfl, by with_unfolding_all rfl⟩
  | binaryTime =>
    rw [defaultValue] at made
    cases made
    have range : BinaryTimeRange 0 := .inl (by decide)
    refine ⟨trivial, range, fun _ dv converted => ?_⟩
    cases converted
    exact range
  | objectIdentifier =>
    rw [defaultValue] at made
    cases made
    have valid : IsObjectIdentifier [0, 0] := by
      exact ⟨by decide, by decide, by rintro _ ⟨⟩⟩
    refine ⟨trivial, valid, fun _ dv converted => ?_⟩
    cases converted
    exact (codableOid_iff _).mpr ⟨valid, by decide⟩
  | _ =>
    rw [defaultValue] at made
    cases made
    refine ⟨trivial, trivial, fun _ dv converted => ?_⟩
    cases converted
    trivial

end Defaults

end TypeSpec

/-- The nesting, element-count and length limits of the decoder. -/
structure WithinLimits (runtime : Runtime) (element : DataValue) : Prop where
  nesting : element.depth ≤ maxDataNestingDepth
  elementCount : ∀ node ∈ element.nodes, ∀ elements,
    node = .array elements ∨ node = .struct elements → elements.length ≤ maxAccessResults
  contentLength : ∀ node ∈ element.nodes, node.ShortContent runtime

/-- **Default values fit their type and the wire.** For a type with sound counts and sizes,
`DefaultValue` returns nil only if it reaches a type without values. Any other result is compatible
with its type at every level, is converted and encoded, and within the limits of the decoder and
without floating point and generalized times it is read back as an equal value. -/
theorem defaultValue_fits (runtime : Runtime) {ts : TypeSpec} {value : Value}
    (sound : ∀ depth, ∀ node ∈ ts.nodesAt depth, node.Sound)
    (made : ts.defaultValue = .ok value) :
    (value = .nil → ∃ node, ts.Reaches node ∧ node.Unsupported) ∧
    (value ≠ .nil → ts.deepCompatible value = true ∧ ∃ element wire,
      valueToDataValue runtime value = .ok element ∧ marshalData runtime element = .ok wire ∧
      ((∀ depth, ∀ node ∈ ts.nodesAt depth, ¬node.PlatformDependent) →
        WithinLimits runtime element →
        ∃ decoded read, unmarshalDataElement runtime wire 0 = .ok (decoded, wire.length) ∧
          dataValueToValue decoded = .ok read ∧ value.equal read = true)) := by
  refine ⟨?_, fun present => ⟨TypeSpec.deepCompatible_defaultValue sound made present, ?_⟩⟩
  · rintro rfl
    exact TypeSpec.unsupported_of_nil sound made
  -- every leaf of the value is the default of a leaf type, about which all is known
  have leaves : ∀ leaf ∈ value.leaves, leaf.Convertible ∧ leaf.Expressible ∧
      ((∀ depth, ∀ node ∈ ts.nodesAt depth, ¬node.PlatformDependent) →
        ∀ dv, valueToDataValue runtime leaf = .ok dv → dv.Admissible CodableOid) := by
    intro leaf member
    obtain ⟨depth, node, known, single, leafMade, leafPresent⟩ :=
      TypeSpec.exists_leafType sound made present member
    obtain ⟨convertible, expressible, admissible⟩ :=
      TypeSpec.leaf_delivered runtime single (sound depth node known) leafMade leafPresent
    exact ⟨convertible, expressible, fun plain => admissible (plain depth node known)⟩
  obtain ⟨element, converted⟩ := (@valueToDataValue_ok_iff runtime value).mpr
    fun leaf member => (leaves leaf member).1
  obtain ⟨wire, encoded⟩ := (marshalData_ok_iff converted).mpr
    fun leaf member => (leaves leaf member).2.1
  refine ⟨element, wire, converted, encoded, fun plain limits => ?_⟩
  have admissible : ∀ node ∈ element.nodes, node.Admissible CodableOid := by
    intro node member
    by_cases container : node.IsContainer
    · have count := limits.elementCount node member
      cases node with
      | array elements => exact count elements (.inl rfl)
      | struct elements => exact count elements (.inr rfl)
      | _ => exact container.elim
    · obtain ⟨leaf, known, same⟩ := exists_leaf_of_node value converted member container
      exact (leaves leaf known).2.2 plain node same
  obtain ⟨written, same, reads⟩ := readsBack_of_limits admissible limits.contentLength
    (Nat.lt_succ_of_le limits.nesting)
  obtain rfl : wire = written := Except.ok.inj (encoded.symm.trans same)
  have read := reads [] []
  rw [List.nil_append, List.append_nil] at read
  exact ⟨element, value, read, dataValueToValue_valueToDataValue value converted, value.equal_self⟩

/-- A structure of nine bits and two integers. -/
def recordType : TypeSpec :=
  { type := .struct
    elements := [([0x73], { type := .bitString, size := 9 }),
      ([0x61], { type := .array, count := 2, element := some { type := .integer } })] }

def recordDefault : Value := .struct [.bitString [0, 0] 9, .array [.integer 0, .integer 0]]

theorem recordType_nodes {condition : TypeSpec → Prop} (root : condition recordType)
    (bits : condition { type := .bitString, size := 9 })
    (list : condition { type := .array, count := 2, element := some { type := .integer } })
    (item : condition { type := .integer }) :
    ∀ depth, ∀ node ∈ recordType.nodesAt depth, condition node := by
  rw [TypeSpec.forall_nodesAt_iff]
  refine ⟨root, List.forall_mem_cons.mpr ⟨?_, List.forall_mem_singleton.mpr ?_⟩⟩
  · exact TypeSpec.forall_nodesAt_iff.mpr ⟨bits, by rintro _ ⟨⟩⟩
  · refine TypeSpec.forall_nodesAt_iff.mpr ⟨list, List.forall_mem_singleton.mpr ?_⟩
    exact TypeSpec.forall_nodesAt_iff.mpr ⟨item, by rintro _ ⟨⟩⟩

theorem defaultValue_fits_record :
    recordType.deepCompatible recordDefault = true ∧ ∃ wire decoded read,
      unmarshalDataElement default wire 0 = .ok (decoded, wire.length) ∧
      dataValueToValue decoded = .ok read ∧ recordDefault.equal read = true := by
  have made : recordType.defaultValue = .ok recordDefault := by with_unfolding_all rfl
  have sound : ∀ depth, ∀ node ∈ recordType.nodesAt depth, node.Sound := by
    refine recordType_nodes ⟨by rintro ⟨⟩, by decide⟩ ⟨by rintro ⟨⟩, by decide⟩ ?_
      ⟨by rintro ⟨⟩, by decide⟩
    exact ⟨fun _ => ⟨by decide, fun _ => by rintro ⟨⟩⟩, by decide⟩
  have plain : ∀ depth, ∀ node ∈ recordType.nodesAt depth, ¬node.PlatformDependent := by
    apply recordType_nodes
    all_goals rintro (⟨⟨⟩⟩ | ⟨⟨⟩⟩ | ⟨⟨⟩⟩)
  obtain ⟨fits, element, wire, converted, -, arrives⟩ :=
    (defaultValue_fits default sound made).2 (by rintro ⟨⟩)
  cases converted
  refine ⟨fits, wire, arrives plain ⟨by decide, ?_, by decide +kernel⟩⟩
  simp only [DataValue.nodes, DataValue.nodesBelow, List.append_nil, List.cons_append,
    List.nil_append, List.forall_mem_cons]
  refine ⟨?_, ?_, ?_, ?_, ?_, by rintro _ ⟨⟩⟩
  all_goals rintro elements (same | same)
  all_goals cases same
  all_goals decide

end GoMms.Mms
