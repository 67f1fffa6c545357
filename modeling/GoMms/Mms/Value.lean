import GoMms.Foundation.Tracing
import GoMms.Pdu.DataReencode

/-!
# Values

`Value` of the public API, its `Equal`, and the conversions between values and the Data
elements of the wire. A `*Value` may be nil, also inside a composite. The conversions lose
nothing but the width of a float, so a decoded element that converts in both directions is
encoded again without growing and decodes to an equal value (`reencode_stable`).
-/

namespace GoMms.Mms

open Pdu

/-- A `*Value`: nil, or the fields populated for its type. -/
inductive Value where
  | nil
  | boolean (value : Bool)
  | integer (value : Int64)
  | unsigned (value : UInt64)
  | float (bits : UInt64)
  | bitString (bytes : Octets) (bitLen : Int64)
  | octetString (bytes : Octets)
  | visibleString (text : Octets)
  | mmsString (text : Octets)
  | utcTime (time : Instant) (quality : UInt8)
  | binaryTime (msEpoch : Int64)
  | array (elements : List Value)
  | struct (elements : List Value)
  | generalizedTime (time : Instant)
  | bcd (value : Int64)
  | objectIdentifier (oid : List Int64)
  | real (bits : UInt64)
  | booleanArray (bytes : Octets) (bitLen : Int64)
  | dataAccessError (code : Int64)

/-- `math.IsNaN` on a bit pattern. -/
def isNaN (bits : UInt64) : Bool :=
  (bits >>> 52) &&& 0x7ff == 0x7ff && bits &&& 0xfffffffffffff != 0

/-- `floatsEqual`: bit for bit, with all NaNs equal. -/
def floatsEqual (first second : UInt64) : Bool :=
  if isNaN first || isNaN second then isNaN first && isNaN second else first == second

/-- Go's `==` on float64: a NaN equals nothing and the two zeros are equal. -/
def float64Eq (first second : UInt64) : Bool :=
  !isNaN first && !isNaN second && (first == second || (first ||| second) <<< 1 == 0)

mutual

def Value.equal : Value → Value → Bool
  | .nil, .nil => true
  | .boolean first, .boolean second => first == second
  | .integer first, .integer second => first == second
  | .unsigned first, .unsigned second => first == second
  | .float first, .float second => floatsEqual first second
  | .bitString first firstLen, .bitString second secondLen =>
    firstLen == secondLen && first == second
  | .octetString first, .octetString second => first == second
  | .visibleString first, .visibleString second => first == second
  | .mmsString first, .mmsString second => first == second
  | .utcTime first firstQuality, .utcTime second secondQuality =>
    first == second && firstQuality == secondQuality
  | .binaryTime first, .binaryTime second => first == second
  | .generalizedTime first, .generalizedTime second => first == second
  | .bcd first, .bcd second => first == second
  | .objectIdentifier first, .objectIdentifier second => first == second
  | .real first, .real second => floatsEqual first second
  | .booleanArray first firstLen, .booleanArray second secondLen =>
    firstLen == secondLen && first == second
  | .struct first, .struct second => equalElements first second
  | .array first, .array second => equalElements first second
  | .dataAccessError first, .dataAccessError second => first == second
  | _, _ => false

/-- Element by element; lists of different lengths differ. -/
def equalElements : List Value → List Value → Bool
  | [], [] => true
  | first :: firsts, second :: seconds => first.equal second && equalElements firsts seconds
  | _, _ => false

end

section Conversion

variable (runtime : Runtime)

mutual

def valueToDataValue : Value → Except String DataValue
  | .nil => .error "nil value"
  | .boolean value => .ok (.boolean value)
  | .integer value => .ok (.integer value)
  | .unsigned value => .ok (.unsigned value)
  | .float bits =>
    let wide := !float64Eq (runtime.widen (runtime.narrow bits)) bits
    .ok (.float bits wide)
  | .bitString bytes bitLen => .ok (.bitString bytes bitLen)
  | .octetString bytes => .ok (.octetString bytes)
  | .visibleString text => .ok (.visibleString text)
  | .mmsString text => .ok (.mmsString text)
  | .utcTime time quality => .ok (.utcTime time quality)
  | .binaryTime msEpoch => .ok (.binaryTime msEpoch)
  | .array elements =>
    match valuesToDataValues 0 elements with
    | .error text => .error text
    | .ok elems => .ok (.array elems)
  | .struct elements =>
    match valuesToDataValues 0 elements with
    | .error text => .error text
    | .ok elems => .ok (.struct elems)
  | .generalizedTime time => .ok (.generalizedTime time)
  | .bcd value => .ok (.bcd value)
  | .objectIdentifier oid => .ok (.objectIdentifier oid)
  | .real bits => .ok (.real bits)
  | .booleanArray bytes bitLen => .ok (.booleanArray bytes bitLen)
  | .dataAccessError _ =>
    .error "cannot marshal DataAccessError as writable MMS Data value"

/-- `valuesToDataValues` from the given index on. -/
def valuesToDataValues : (index : Nat) → List Value → Except String (List DataValue)
  | _, [] => .ok []
  | index, value :: rest =>
    match valueToDataValue value with
    | .error text => .error ("element [" ++ toString index ++ "]: " ++ text)
    | .ok element =>
      match valuesToDataValues (index + 1) rest with
      | .error text => .error text
      | .ok elements => .ok (element :: elements)

end

/-- `decodeDataAccessError`: the wire values 0 to 11. -/
def decodeDataAccessError (wire : Int64) : Except String Int64 :=
  if wire < 0 ∨ wire > 11 then
    .error ("mms: unknown data-access-error wire value " ++ toString wire)
  else .ok wire

mutual

def dataValueToValue : DataValue → Except String Value
  | .boolean value => .ok (.boolean value)
  | .integer value => .ok (.integer value)
  | .unsigned value => .ok (.unsigned value)
  | .float bits _ => .ok (.float bits)
  | .bitString bytes bitLen => .ok (.bitString bytes bitLen)
  | .octetString bytes => .ok (.octetString bytes)
  | .visibleString text => .ok (.visibleString text)
  | .mmsString text => .ok (.mmsString text)
  | .utcTime time quality => .ok (.utcTime time quality)
  | .binaryTime msEpoch => .ok (.binaryTime msEpoch)
  | .array elements =>
    match dataValuesToValues 0 elements with
    | .error text => .error text
    | .ok children => .ok (.array children)
  | .struct elements =>
    match dataValuesToValues 0 elements with
    | .error text => .error text
    | .ok children => .ok (.struct children)
  | .generalizedTime time => .ok (.generalizedTime time)
  | .bcd value => .ok (.bcd value)
  | .objectIdentifier oid => .ok (.objectIdentifier oid)
  | .real bits => .ok (.real bits)
  | .booleanArray bytes bitLen => .ok (.booleanArray bytes bitLen)
  | .accessError errCode =>
    match decodeDataAccessError errCode with
    | .error text => .error ("mms: data value: " ++ text)
    | .ok code => .ok (.dataAccessError code)

/-- `dataValuesToValues` from the given index on. -/
def dataValuesToValues : (index : Nat) → List DataValue → Except String (List Value)
  | _, [] => .ok []
  | index, element :: rest =>
    match dataValueToValue element with
    | .error text => .error ("element [" ++ toString index ++ "]: " ++ text)
    | .ok value =>
      match dataValuesToValues (index + 1) rest with
      | .error text => .error text
      | .ok values => .ok (value :: values)

end

end Conversion

/-! ## Composites -/

/-- Arrays and structures, which are treated alike. -/
inductive Composite where
  | array
  | struct

/-- The composite value with the given elements. -/
def Composite.value : Composite → List Value → Value
  | .array => .array
  | .struct => .struct

/-- The composite element of the wire. -/
def Composite.data : Composite → List DataValue → DataValue
  | .array => .array
  | .struct => .struct

/-- The value is neither nil nor composite. -/
def Value.IsLeaf : Value → Prop
  | .nil | .array _ | .struct _ => False
  | _ => True

/-- Induction over the elements of composites. -/
theorem Value.induction_elements {motive : Value → Prop} (nil : motive .nil)
    (leaf : ∀ value : Value, value.IsLeaf → motive value)
    (composite : ∀ (kind : Composite) (elements : List Value),
      (∀ element ∈ elements, motive element) → motive (kind.value elements))
    (value : Value) : motive value := by
  cases value with
  | nil => exact nil
  | array elements =>
    exact composite .array elements fun element known =>
      have := List.sizeOf_lt_of_mem known
      Value.induction_elements nil leaf composite element
  | struct elements =>
    exact composite .struct elements fun element known =>
      have := List.sizeOf_lt_of_mem known
      Value.induction_elements nil leaf composite element
  | _ => exact leaf _ trivial
termination_by sizeOf value

theorem Value.equal_composite (kind : Composite) (firsts seconds : List Value) :
    (kind.value firsts).equal (kind.value seconds) = equalElements firsts seconds := by
  cases kind <;> rw [Composite.value, Value.equal]

theorem equalElements_iff {firsts seconds : List Value} :
    equalElements firsts seconds = true ↔
      List.Forall₂ (fun first second => first.equal second = true) firsts seconds := by
  induction firsts generalizing seconds with
  | nil => cases seconds <;> simp [equalElements]
  | cons first firsts ih => cases seconds <;> simp [equalElements, ih]

@[simp] theorem floatsEqual_self (bits : UInt64) : floatsEqual bits bits = true := by
  cases nan : isNaN bits <;> simp [floatsEqual, nan]

/-- Every value equals itself, NaN included. -/
@[simp] theorem Value.equal_self (value : Value) : value.equal value = true := by
  induction value using Value.induction_elements with
  | nil => rfl
  | leaf value leaf =>
    cases value with
    | nil | array | struct => exact leaf.elim
    | _ => simp [Value.equal]
  | composite kind elements ih =>
    rw [Value.equal_composite, equalElements_iff, List.forall₂_same]
    exact ih

section Conversions

variable {runtime : Runtime} {kind : Composite} {index : Nat} {values : List Value}
  {elements : List DataValue}

theorem valuesToDataValues_eq_ok :
    valuesToDataValues runtime index values = .ok elements ↔
      List.Forall₂ (fun value element => valueToDataValue runtime value = .ok element)
        values elements := by
  induction values generalizing index elements with
  | nil => simp [valuesToDataValues, eq_comm]
  | cons value rest ih =>
    rw [valuesToDataValues, List.forall₂_cons_left_iff]
    simp only [← @ih (index + 1)]
    cases valueToDataValue runtime value <;>
      cases valuesToDataValues runtime (index + 1) rest <;> simp [eq_comm]

theorem dataValuesToValues_eq_ok :
    dataValuesToValues index elements = .ok values ↔
      List.Forall₂ (fun element value => dataValueToValue element = .ok value) elements values := by
  induction elements generalizing index values with
  | nil => simp [dataValuesToValues, eq_comm]
  | cons element rest ih =>
    rw [dataValuesToValues, List.forall₂_cons_left_iff]
    simp only [← @ih (index + 1)]
    cases dataValueToValue element <;> cases dataValuesToValues (index + 1) rest <;> simp [eq_comm]

/-- A composite is converted element by element. -/
theorem valueToDataValue_composite {element : DataValue} :
    valueToDataValue runtime (kind.value values) = .ok element ↔
      ∃ elements, List.Forall₂ (fun value element => valueToDataValue runtime value = .ok element)
        values elements ∧ element = kind.data elements := by
  simp only [← @valuesToDataValues_eq_ok _ 0]
  cases kind <;> simp only [Composite.value, valueToDataValue] <;>
    cases valuesToDataValues runtime 0 values <;> simp [Composite.data, eq_comm]

theorem dataValueToValue_composite {value : Value} :
    dataValueToValue (kind.data elements) = .ok value ↔
      ∃ values, List.Forall₂ (fun element value => dataValueToValue element = .ok value)
        elements values ∧ value = kind.value values := by
  simp only [← @dataValuesToValues_eq_ok 0]
  cases kind <;> simp only [Composite.data, dataValueToValue] <;>
    cases dataValuesToValues 0 elements <;> simp [Composite.value, eq_comm]

end Conversions

section Stable

variable {runtime : Runtime}

/-- The elements that convert into a value and back are writable, and come back as they were. -/
private def ConvertsBack (runtime : Runtime) (element : DataValue) : Prop :=
  ∀ (value : Value) (again : DataValue), (∀ node ∈ element.nodes, node.Plain) →
    dataValueToValue element = .ok value → valueToDataValue runtime value = .ok again →
    again = element ∧ ∀ node ∈ element.nodes, node.Writable

private theorem convertsBack_elements {elements : List DataValue} {values : List Value}
    {again : List DataValue} (children : ∀ child ∈ elements, ConvertsBack runtime child)
    (plain : ∀ node ∈ DataValue.nodesBelow elements, node.Plain)
    (converted : List.Forall₂ (fun element value => dataValueToValue element = .ok value)
      elements values)
    (back : List.Forall₂ (fun value element => valueToDataValue runtime value = .ok element)
      values again) :
    again = elements ∧ ∀ node ∈ DataValue.nodesBelow elements, node.Writable := by
  induction converted generalizing again with
  | nil =>
    cases back
    exact ⟨rfl, by simp [DataValue.nodesBelow]⟩
  | cons headOk _ ih =>
    simp only [DataValue.nodesBelow, List.mem_append] at plain ⊢
    cases back with
    | cons headBack tailBack =>
      obtain ⟨rfl, headWritable⟩ := children _ List.mem_cons_self _ _
        (fun node member => plain node (.inl member)) headOk headBack
      obtain ⟨rfl, tailWritable⟩ := ih
        (fun child member => children child (List.mem_cons_of_mem _ member))
        (fun node member => plain node (.inr member)) tailBack
      refine ⟨rfl, fun node member => ?_⟩
      exact member.elim (headWritable node) (tailWritable node)

private theorem convertsBack_composite (kind : Composite) {elements : List DataValue}
    (children : ∀ child ∈ elements, ConvertsBack runtime child) :
    ConvertsBack runtime (kind.data elements) := by
  intro value again plain converted back
  obtain ⟨values, valuesOk, rfl⟩ := dataValueToValue_composite.mp converted
  obtain ⟨elems, elemsOk, rfl⟩ := valueToDataValue_composite.mp back
  have nodes :
      (kind.data elements).nodes = kind.data elements :: DataValue.nodesBelow elements := by
    cases kind <;> rw [Composite.data, DataValue.nodes]
  rw [nodes] at plain ⊢
  obtain ⟨rfl, writable⟩ := convertsBack_elements children
    (fun node member => plain node (List.mem_cons_of_mem _ member)) valuesOk elemsOk
  refine ⟨rfl, List.forall_mem_cons.mpr ⟨?_, writable⟩⟩
  cases kind <;> trivial

private theorem convertsBack (levels : Nat) (element : DataValue)
    (shallow : element.depth < levels) :
    ConvertsBack runtime element := by
  induction levels generalizing element with
  | zero => omega
  | succ levels ih =>
    have children (elements : List DataValue) (below : DataValue.depthBelow elements ≤ levels) :
        ∀ child ∈ elements, ConvertsBack runtime child := fun child member =>
      ih child (DataValue.depthBelow_le_iff.mp below child member)
    cases element with
    | array elements =>
      exact convertsBack_composite .array (children elements (Nat.le_of_lt_succ shallow))
    | struct elements =>
      exact convertsBack_composite .struct (children elements (Nat.le_of_lt_succ shallow))
    | float | real | generalizedTime =>
      exact fun _ _ plain => (plain _ (DataValue.mem_nodes_self _)).elim
    | accessError errCode =>
      intro value again _ converted back
      simp only [dataValueToValue] at converted
      split at converted
      · cases converted
      · cases converted
        simp [valueToDataValue] at back
    | _ =>
      intro value again _ converted back
      simp only [dataValueToValue, Except.ok.injEq] at converted
      subst converted
      simp only [valueToDataValue, Except.ok.injEq] at back
      subst back
      refine ⟨rfl, fun node member => ?_⟩
      rw [List.mem_singleton.mp member]
      trivial

theorem reencode_stable (runtime : Runtime) {data : Octets} {element again : DataValue}
    {consumed : Nat} {value : Value}
    (accepted : unmarshalDataElement runtime data 0 = .ok (element, consumed))
    (plain : ∀ node ∈ element.nodes, node.Plain)
    (converted : dataValueToValue element = .ok value)
    (writable : valueToDataValue runtime value = .ok again) :
    ∃ wire decoded last, marshalData runtime again = .ok wire ∧ wire.length ≤ consumed ∧
      unmarshalDataElement runtime wire 0 = .ok (decoded, wire.length) ∧
      dataValueToValue decoded = .ok last ∧ value.equal last = true := by
  obtain ⟨rfl, nodes⟩ := convertsBack _ element (Nat.lt_succ_self _) _ _ plain converted writable
  have limits := unmarshalDataElementWithDepth_ok accepted nodes
  obtain ⟨wire, encoded, decoded⟩ :=
    readsBack_of_limits limits.node_admissible limits.content_lt limits.depth_lt
  obtain ⟨other, same, length⟩ := limits.exists_wire
  rw [encoded] at same
  cases same
  have whole := decoded [] []
  rw [List.nil_append, List.append_nil, List.length_nil] at whole
  exact ⟨wire, again, value, encoded, length, whole, converted, value.equal_self⟩

/-- A padded length, a padded integer and a boolean octet other than `ff` are encoded in
fewer octets. -/
theorem reencode_stable_padded :
    ∃ wire decoded last,
      marshalData default (.struct [.integer 5, .boolean true]) = .ok wire ∧ wire.length ≤ 10 ∧
      unmarshalDataElement default wire 0 = .ok (decoded, wire.length) ∧
      dataValueToValue decoded = .ok last ∧
      (Value.struct [.integer 5, .boolean true]).equal last = true := by
  have accepted : unmarshalDataElement default
      [0xa2, 0x81, 0x07, 0x85, 0x02, 0x00, 0x05, 0x83, 0x01, 0x01] 0 =
      .ok (.struct [.integer 5, .boolean true], 10) := by
    with_unfolding_all rfl
  refine reencode_stable default accepted (fun node member => ?_) rfl rfl
  simp only [DataValue.nodes, DataValue.nodesBelow, List.append_nil, List.cons_append,
    List.nil_append, List.mem_cons, List.not_mem_nil, or_false] at member
  rcases member with rfl | rfl | rfl <;> trivial

end Stable

end GoMms.Mms
