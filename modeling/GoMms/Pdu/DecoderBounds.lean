import GoMms.Pdu.DataReencode
import GoMms.Pdu.TypeSpecRoundTrip

/-!
# The decoders bound what they build

Every tree that the decoders of data values and of type specifications return is bounded by their
limits and by the octets it was read from: each node has a header of two octets of its own
(`bounded_of_decode`, `typeBounded_of_decode`). The decoders of arrays, structures and components
are cut in two for it: what they read themselves, and the type they leave to the decoder one level
down.
-/

namespace GoMms.Pdu

open Octets Berutil DataValue

/-! ## Data values -/

section Data

variable {runtime : Runtime}

/-- What the decoder has built from `size` octets with `levels` levels left. -/
structure Bounded (levels : Nat) (value : DataValue) (size : Nat) : Prop where
  depth_lt : value.depth < levels
  children_le : ∀ node ∈ value.nodes, node.children.length ≤ maxAccessResults
  nodes_le : 2 * value.nodes.length ≤ size

/-- What the element loop has collected from `size` octets. -/
structure BoundedList (levels : Nat) (values : List DataValue) (size : Nat) : Prop where
  count_le : values.length ≤ maxAccessResults
  depth_lt : ∀ value ∈ values, value.depth < levels
  children_le : ∀ node ∈ nodesBelow values, node.children.length ≤ maxAccessResults
  nodes_le : 2 * (nodesBelow values).length ≤ size

theorem nodesBelow_append (front : List DataValue) (last : DataValue) :
    nodesBelow (front ++ [last]) = nodesBelow front ++ last.nodes := by
  induction front with
  | nil => simp [nodesBelow]
  | cons head front ih => simp [nodesBelow, ih]

theorem boundedList_nil (levels size : Nat) : BoundedList levels [] size :=
  ⟨Nat.zero_le _, by simp, by simp [nodesBelow], by simp [nodesBelow]⟩

variable {levels : Nat}

variable {size consumed : Nat} {values : List DataValue} {value : DataValue}

theorem BoundedList.snoc (bounded : BoundedList levels values size)
    (count : (values ++ [value]).length ≤ maxAccessResults) (next : Bounded levels value consumed) :
    BoundedList levels (values ++ [value]) (size + consumed) where
  count_le := count
  depth_lt := List.forall_mem_append.mpr
    ⟨bounded.depth_lt, List.forall_mem_singleton.mpr next.depth_lt⟩
  children_le := by
    rw [nodesBelow_append]
    exact List.forall_mem_append.mpr ⟨bounded.children_le, next.children_le⟩
  nodes_le := by
    have before := bounded.nodes_le
    have last := next.nodes_le
    rw [nodesBelow_append, List.length_append]
    omega

/-- The element loop, when the elements are bounded. -/
theorem boundedList_of_accessResults {data : Octets}
    {read : Octets → Nat → Except String (DataValue × Nat)}
    (element : ∀ {data offset value consumed}, read data offset = .ok (value, consumed) →
      Bounded levels value consumed) (ok : accessResults read data = .ok values) :
    BoundedList levels values data.length :=
  accessResults_invariant (BoundedList levels) (fun _ _ _ _ bounded found count =>
    bounded.snoc count (element found)) ok (boundedList_nil levels 0)

/-- A node over children that are bounded. -/
theorem bounded_of_children (below : BoundedList levels value.children size)
    (header : size + 2 ≤ consumed) :
    Bounded (levels + 1) value consumed where
  depth_lt := by
    rw [depth_eq_children]
    exact Nat.lt_succ_of_le (depthBelow_le_iff.mpr below.depth_lt)
  children_le := by
    rw [nodes_eq_children]
    exact List.forall_mem_cons.mpr ⟨below.count_le, below.children_le⟩
  nodes_le := by
    have nodes := below.nodes_le
    rw [nodes_eq_children, List.length_cons]
    omega

section Read

variable {levels : Nat} {data : Octets} {offset : Nat} {value : DataValue} {consumed : Nat}
  (ok : unmarshalDataElementWithDepth runtime levels data offset = .ok (value, consumed))

include ok

/-- Every decoded tree is bounded by the levels that were left and the octets it occupies. -/
theorem bounded_of_decode : Bounded levels value consumed := by
  induction levels generalizing data offset value consumed with
  | zero => cases ok
  | succ levels ih =>
    obtain ⟨tlv, read, content, rfl⟩ := unmarshalDataElementWithDepth_succ_ok ok
    refine bounded_of_children ?_ (length_content_le read)
    rcases children_of_decodeDataContent content with none | collected
    · rw [none]
      exact boundedList_nil _ _
    · exact boundedList_of_accessResults ih collected

theorem consumed_pos_of_decode : 0 < consumed := by
  have bound := (bounded_of_decode ok).nodes_le
  rw [nodes_eq_children, List.length_cons] at bound
  omega

theorem consumed_le_of_decode : consumed ≤ data.length := by
  cases levels with
  | zero => cases ok
  | succ levels =>
    obtain ⟨tlv, read, -, rfl⟩ := unmarshalDataElementWithDepth_succ_ok ok
    have inside := (decodeTLVAt_ok read).1
    omega

end Read

end Data

/-! ## Type specifications -/

mutual

/-- The number of nodes of a type specification. -/
def TypeSpecWire.size : TypeSpecWire → Nat
  | .array _ (some element) => element.size + 1
  | .struct components => sizeBelow components + 1
  | _ => 1

def sizeBelow : List (Octets × TypeSpecWire) → Nat
  | [] => 0
  | (_, type) :: components => type.size + sizeBelow components

end

section TypeSpec

variable {read : Octets → Except String TypeSpecWire} {levels : Nat} {data content : Octets}
  {ts : TypeSpecWire}

/-- What `decodeArrayTypeSpec` has read when it comes to the element type: the count and the
octets of the element type. -/
def arrayParts (data : Octets) : Except String (Int64 × Octets) :=
  match optionalField "array packed: " 0x80 data 0 with
  | .error text => .error text
  | .ok (_, offset) =>
    if offset ≥ data.length then .error "array: missing numberOfElements"
    else
      match requiredField "array numberOfElements: "
        "array numberOfElements: expected [1] (0x81), got 0x" 0x81 data offset with
      | .error text => .error text
      | .ok (number, offset) =>
        match decodeInteger number with
        | .error text => .error ("array numberOfElements value: " ++ text)
        | .ok count =>
          if offset ≥ data.length then .error "array: missing elementType"
          else
            match requiredField "array elementType: "
              "array elementType: expected [2] (0xa2), got 0x" 0xa2 data offset with
            | .error text => .error text
            | .ok (content, offset) =>
              if offset ≠ data.length then
                .error ("array: " ++ toString ((data.length : Int) - offset) ++ " trailing bytes")
              else .ok (count, content)

theorem decodeArrayTypeSpec_eq (read : Octets → Except String TypeSpecWire) (data : Octets) :
    decodeArrayTypeSpec read data =
      match arrayParts data with
      | .error text => .error text
      | .ok (count, content) =>
        match read content with
        | .error text => .error ("array elementType: " ++ text)
        | .ok elemType => .ok (.array count (some elemType)) := by
  unfold decodeArrayTypeSpec arrayParts
  cases optionalField "array packed: " 0x80 data 0 with
  | error text => rfl
  | ok packed =>
    dsimp only
    split_ifs with empty
    · rfl
    · cases requiredField "array numberOfElements: "
          "array numberOfElements: expected [1] (0x81), got 0x" 0x81 data packed.2 with
      | error text => rfl
      | ok number =>
        dsimp only
        cases decodeInteger number.1 with
        | error text => rfl
        | ok count =>
          dsimp only
          split_ifs with short
          · rfl
          · cases requiredField "array elementType: "
                "array elementType: expected [2] (0xa2), got 0x" 0xa2 data number.2 with
            | error text => rfl
            | ok element =>
              dsimp only
              split_ifs with trailing
              · rfl
              · rfl

theorem decodeArrayTypeSpec_iff_parts :
    decodeArrayTypeSpec read data = .ok ts ↔ ∃ count content element,
      arrayParts data = .ok (count, content) ∧ read content = .ok element ∧
        ts = .array count (some element) := by
  rw [decodeArrayTypeSpec_eq]
  cases arrayParts data with
  | error text => simp
  | ok parts =>
    obtain ⟨count, content⟩ := parts
    dsimp only
    cases element : read content <;> simp [element, eq_comm]

theorem length_of_arrayParts {count : Int64}
    (ok : arrayParts data = .ok (count, content)) : content.length ≤ data.length := by
  unfold arrayParts at ok
  split at ok
  · cases ok
  split_ifs at ok
  split at ok
  · cases ok
  split at ok
  · cases ok
  split_ifs at ok
  split at ok
  · cases ok
  rename_i content' after field
  split_ifs at ok
  cases ok
  have inside := requiredField_ok field
  omega

/-- What `decodeStructComponent` has read when it comes to the type: the name and the octets of the
type. -/
def componentParts (data : Octets) : Except String (Octets × Octets) :=
  match optionalField "componentName: " 0x80 data 0 with
  | .error text => .error text
  | .ok (name, offset) =>
    if offset ≥ data.length then .error "missing componentType"
    else
      match requiredField "componentType: " "componentType: expected [1] (0xa1), got 0x" 0xa1
        data offset with
      | .error text => .error text
      | .ok (content, offset) =>
        if offset ≠ data.length then
          .error ("structComponent: " ++ toString ((data.length : Int) - offset) ++
            " trailing bytes")
        else .ok (name.getD [], content)

theorem decodeStructComponent_eq (read : Octets → Except String TypeSpecWire) (data : Octets) :
    decodeStructComponent read data =
      match componentParts data with
      | .error text => .error text
      | .ok (name, content) =>
        match read content with
        | .error text => .error ("componentType: " ++ text)
        | .ok ts => .ok (name, ts) := by
  unfold decodeStructComponent componentParts
  cases optionalField "componentName: " 0x80 data 0 with
  | error text => rfl
  | ok name =>
    dsimp only
    split_ifs with empty
    · rfl
    · cases requiredField "componentType: " "componentType: expected [1] (0xa1), got 0x" 0xa1 data
          name.2 with
      | error text => rfl
      | ok type =>
        dsimp only
        split_ifs with trailing
        · rfl
        · rfl

theorem decodeStructComponent_ok_iff {component : Octets × TypeSpecWire} :
    decodeStructComponent read data = .ok component ↔
      ∃ content, componentParts data = .ok (component.1, content) ∧
        read content = .ok component.2 := by
  rw [decodeStructComponent_eq]
  cases componentParts data with
  | error text => simp
  | ok parts =>
    obtain ⟨name, content⟩ := parts
    dsimp only
    cases below : read content with
    | error text => simp [below]
    | ok ts =>
      obtain ⟨label, type⟩ := component
      simp only [Except.ok.injEq, Prod.mk.injEq]
      constructor
      · rintro ⟨rfl, rfl⟩
        exact ⟨content, ⟨rfl, rfl⟩, below⟩
      · rintro ⟨_, ⟨rfl, rfl⟩, typed⟩
        rw [below] at typed
        exact ⟨rfl, Except.ok.inj typed⟩

theorem length_of_componentParts {name : Octets}
    (ok : componentParts data = .ok (name, content)) : content.length ≤ data.length := by
  unfold componentParts at ok
  split at ok
  · cases ok
  split_ifs at ok
  split at ok
  · cases ok
  rename_i content' after field
  split_ifs at ok
  cases ok
  have inside := requiredField_ok field
  omega

/-- The octets of the components that `decodeStructureTypeSpec` goes on to read. -/
def structureParts (data : Octets) : Except String Octets :=
  match optionalField "structure packed: " 0x80 data 0 with
  | .error text => .error text
  | .ok (_, offset) =>
    if offset ≥ data.length then .error "structure: missing components"
    else
      match requiredField "structure components: "
        "structure components: expected [1] (0xa1), got 0x" 0xa1 data offset with
      | .error text => .error text
      | .ok (content, offset) =>
        if offset ≠ data.length then
          .error ("structure: " ++ toString ((data.length : Int) - offset) ++ " trailing bytes")
        else .ok content

theorem decodeStructureTypeSpec_eq (read : Octets → Except String TypeSpecWire) (data : Octets) :
    decodeStructureTypeSpec read data =
      match structureParts data with
      | .error text => .error text
      | .ok content =>
        match decodeStructComponents read content with
        | .error text => .error text
        | .ok components => .ok (.struct components) := by
  unfold decodeStructureTypeSpec structureParts
  cases optionalField "structure packed: " 0x80 data 0 with
  | error text => rfl
  | ok packed =>
    dsimp only
    split_ifs with empty
    · rfl
    · cases requiredField "structure components: "
          "structure components: expected [1] (0xa1), got 0x" 0xa1 data packed.2 with
      | error text => rfl
      | ok components =>
        dsimp only
        split_ifs with trailing
        · rfl
        · rfl

theorem decodeStructureTypeSpec_ok_iff :
    decodeStructureTypeSpec read data = .ok ts ↔ ∃ content components,
      structureParts data = .ok content ∧ decodeStructComponents read content = .ok components ∧
        ts = .struct components := by
  rw [decodeStructureTypeSpec_eq]
  cases structureParts data with
  | error text => simp
  | ok content =>
    dsimp only
    cases found : decodeStructComponents read content <;> simp [found, eq_comm]

theorem length_of_structureParts (ok : structureParts data = .ok content) :
    content.length ≤ data.length := by
  unfold structureParts at ok
  split at ok
  · cases ok
  split_ifs at ok
  split at ok
  · cases ok
  rename_i content' after field
  split_ifs at ok
  cases ok
  have inside := requiredField_ok field
  omega

/-- A node without children. -/
def TypeSpecWire.Single (ts : TypeSpecWire) : Prop :=
  ts.children = [] ∧ ts.size = 1

theorem single_of_decodeSized {field : String} {make : Int64 → TypeSpecWire}
    (single : ∀ size, (make size).Single)
    (ok : decodeSized field make content = .ok ts) : ts.Single := by
  unfold decodeSized at ok
  split at ok
  · cases ok
  · cases ok
    exact single _

theorem single_of_decodeFloat (ok : decodeFloatTypeSpec content = .ok ts) : ts.Single := by
  unfold decodeFloatTypeSpec at ok
  split at ok
  · cases ok
  split at ok
  · cases ok
  split at ok
  · cases ok
  split_ifs at ok
  split at ok
  · cases ok
  · cases ok
    exact ⟨rfl, by simp only [TypeSpecWire.size]⟩

variable {tag : UInt8} {components : List (Octets × TypeSpecWire)}

/-- Only the decoders of arrays and of structures build children. -/
theorem decodeTypeSpecFromTLV_ok (ok : decodeTypeSpecFromTLV read tag content = .ok ts) :
    ts.Single ∨ decodeArrayTypeSpec read content = .ok ts ∨
      decodeStructureTypeSpec read content = .ok ts := by
  have sized {field : String} {make : Int64 → TypeSpecWire}
      (single : ∀ size, (make size).children = [] ∧ (make size).size = 1)
      (ok : decodeSized field make content = .ok ts) :
      ts.Single ∨ decodeArrayTypeSpec read content = .ok ts ∨
        decodeStructureTypeSpec read content = .ok ts :=
    .inl (single_of_decodeSized single ok)
  unfold decodeTypeSpecFromTLV at ok
  dsimp only at ok
  split at ok
  case h_1 | h_8 | h_9 | h_11 | h_13 =>
    cases ok
    exact .inl ⟨rfl, by simp only [TypeSpecWire.size]⟩
  case h_2 | h_3 | h_4 | h_6 | h_7 | h_10 | h_12 =>
    exact sized (fun _ => ⟨rfl, by simp only [TypeSpecWire.size]⟩) ok
  case h_5 =>
    split_ifs at ok
    exact .inl (single_of_decodeFloat ok)
  case h_14 =>
    split_ifs at ok
    exact .inr (.inl ok)
  case h_15 =>
    split_ifs at ok
    exact .inr (.inr ok)
  case h_16 =>
    split at ok
    · cases ok
    · cases ok
      exact .inl ⟨rfl, by simp only [TypeSpecWire.size]⟩
  case h_17 => cases ok

/-- What the decoder has built from `size` octets with `levels` levels left. -/
structure TypeBounded (levels : Nat) (ts : TypeSpecWire) (size : Nat) : Prop where
  depth_lt : ∀ depth, ∀ node ∈ ts.nodesAt depth, depth < levels
  size_le : 2 * ts.size ≤ size

theorem nodesAt_lt_of_children
    (below : ∀ child ∈ ts.children, ∀ depth, ∀ node ∈ child.nodesAt depth, depth < levels) :
    ∀ depth, ∀ node ∈ ts.nodesAt depth, depth < levels + 1 := by
  rw [TypeSpecWire.forall_nodesAt_iff]
  simpa only [Nat.succ_pos, Nat.add_lt_add_iff_right, true_and] using below

theorem sizeBelow_append (front : List (Octets × TypeSpecWire)) (last : Octets × TypeSpecWire) :
    sizeBelow (front ++ [last]) = sizeBelow front + last.2.size := by
  induction front with
  | nil => simp [sizeBelow]
  | cons head front ih =>
    simp only [List.cons_append, sizeBelow, ih]
    omega

theorem structComponentField_ok {stored : List (Octets × TypeSpecWire)}
    (ok : structComponentField read components tag content = .ok stored) :
    ∃ name inner ts, stored = components ++ [(name, ts)] ∧ inner.length ≤ content.length ∧
      read inner = .ok ts := by
  unfold structComponentField at ok
  split_ifs at ok
  split at ok
  · cases ok
  rename_i component parsed
  cases ok
  obtain ⟨inner, parts, decoded⟩ := decodeStructComponent_ok_iff.mp parsed
  exact ⟨component.1, inner, component.2, rfl, length_of_componentParts parts, decoded⟩

/-- The component loop, when the types are bounded. -/
theorem decodeStructComponents_bounded
    (type : ∀ {data ts}, read data = .ok ts → TypeBounded levels ts data.length)
    (ok : decodeStructComponents read data = .ok components) :
    (∀ component ∈ components, ∀ depth, ∀ node ∈ component.2.nodesAt depth, depth < levels) ∧
      2 * sizeBelow components ≤ data.length := by
  unfold decodeStructComponents decodeFields at ok
  split at ok
  · cases ok
  rename_i found last loop
  cases ok
  have ended := offsetLoop_invariant (fun components offset => offset ≤ data.length ∧
    (∀ component ∈ components, ∀ depth, ∀ node ∈ component.2.nodesAt depth, depth < levels) ∧
      2 * sizeBelow components ≤ offset) ?_ ⟨Nat.zero_le _, by simp, by simp [sizeBelow]⟩ loop
  · exact ⟨ended.2.1, ended.2.2.trans ended.1⟩
  · rintro found offset step ⟨-, shallow, small⟩ below pass
    unfold fieldPass at pass
    split at pass
    · cases pass
    rename_i tlv read'
    have inside := (decodeTLVAt_ok read').1
    have header := length_content_le read'
    split at pass
    · cases pass
    rename_i stored field
    cases pass
    obtain ⟨name, inner, ts, rfl, shorter, decoded⟩ := structComponentField_ok field
    have bounded := type decoded
    have tiny := bounded.size_le
    refine ⟨inside, ?_, ?_⟩
    · exact List.forall_mem_append.mpr ⟨shallow, List.forall_mem_singleton.mpr bounded.depth_lt⟩
    · dsimp only [LoopStep.state, LoopStep.offset]
      rw [sizeBelow_append]
      dsimp only
      omega

/-- A type is one record, whose content is decoded one level down. -/
theorem decodeTypeSpecWithDepth_succ_ok
    (ok : decodeTypeSpecWithDepth (levels + 1) data = .ok ts) :
    ∃ tlv, decodeTLVAt data 0 = .ok tlv ∧
      decodeTypeSpecFromTLV (decodeTypeSpecWithDepth levels) tlv.tag tlv.content = .ok ts := by
  simp only [decodeTypeSpecWithDepth, decodeTLV] at ok
  split at ok
  · cases ok
  rename_i tag content outer
  split at outer
  · cases outer
  rename_i tlv read
  cases outer
  exact ⟨tlv, read, ok⟩

theorem typeBounded_of_decode (ok : decodeTypeSpecWithDepth levels data = .ok ts) :
    TypeBounded levels ts data.length := by
  induction levels generalizing data ts with
  | zero => cases ok
  | succ levels ih =>
    obtain ⟨tlv, read, typed⟩ := decodeTypeSpecWithDepth_succ_ok ok
    have inside := (decodeTLVAt_ok read).1
    have header := length_content_le read
    rcases decodeTypeSpecFromTLV_ok typed with ⟨childless, alone⟩ | array | struct
    · refine ⟨nodesAt_lt_of_children ?_, by omega⟩
      rw [childless]
      exact fun _ none => absurd none List.not_mem_nil
    · obtain ⟨count, content, element, parts, decoded, rfl⟩ :=
        decodeArrayTypeSpec_iff_parts.mp array
      have shorter := length_of_arrayParts parts
      have bounded := ih decoded
      refine ⟨nodesAt_lt_of_children ?_, ?_⟩
      · exact List.forall_mem_singleton.mpr bounded.depth_lt
      · have small := bounded.size_le
        simp only [TypeSpecWire.size]
        omega
    · obtain ⟨content, components, parts, decoded, rfl⟩ := decodeStructureTypeSpec_ok_iff.mp struct
      have shorter := length_of_structureParts parts
      obtain ⟨shallow, small⟩ := decodeStructComponents_bounded ih decoded
      refine ⟨nodesAt_lt_of_children ?_, ?_⟩
      · intro child known
        obtain ⟨component, member, rfl⟩ := List.mem_map.mp known
        exact shallow component member
      · simp only [TypeSpecWire.size]
        omega

end TypeSpec

end GoMms.Pdu
