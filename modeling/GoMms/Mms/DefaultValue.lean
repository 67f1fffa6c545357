import GoMms.Mms.Deliverable
import GoMms.Pdu.ArrayCounts
import GoMms.Server.VariableAttributes

/-!
# Default values

`TypeSpec.DefaultValue` builds a zero value for a type. It allocates `Count` elements for an array
and panics if the count is negative, which `DecodeTypeSpec` accepts from a peer: it reads an
Unsigned32 with a signed decoder (`arrayCounts_survive_iff`).
-/

namespace GoMms.Mms

open Berutil Pdu Server

/-- The most memory that one allocation may ask for on a 64-bit platform. -/
def maxAlloc : Nat := 2 ^ 48

/-- The length of `make([]T, length)` with elements of `width` octets. It panics if the length is
negative or the memory too much. -/
def makeLength (width : Nat) (length : Int64) : Except Fault Nat :=
  if length < 0 ∨ maxAlloc < width * length.toInt.toNat then .error .sliceOutOfRange
  else .ok length.toInt.toNat

theorem makeLength_ok_iff {width : Nat} {length : Int64} {made : Nat} :
    makeLength width length = .ok made ↔
      0 ≤ length.toInt ∧ width * made ≤ maxAlloc ∧ (made : Int) = length.toInt := by
  have zero : (0 : Int64).toInt = 0 := rfl
  simp only [makeLength, Int64.lt_iff_toInt_lt, zero]
  split_ifs with refused
  · refine ⟨by rintro ⟨⟩, fun ⟨nonneg, fits, same⟩ => ?_⟩
    have made_eq : length.toInt.toNat = made := by omega
    rw [made_eq] at refused
    omega
  · rw [Except.ok.injEq]
    constructor
    · rintro rfl
      exact ⟨by omega, by omega, by omega⟩
    · omega

/-- The loop that fills the elements of a composite: it stops at the first nil. -/
def collectElements : List (Except Fault Value) → Except Fault (Option (List Value))
  | [] => .ok (some [])
  | result :: results =>
    match result with
    | .error fault => .error fault
    | .ok .nil => .ok none
    | .ok value =>
      match collectElements results with
      | .error fault => .error fault
      | .ok none => .ok none
      | .ok (some values) => .ok (some (value :: values))

/-- The composite with the elements, or nil if there was one among them. -/
def compositeOf (make : List Value → Value) (results : List (Except Fault Value)) :
    Except Fault Value :=
  match collectElements results with
  | .error fault => .error fault
  | .ok none => .ok .nil
  | .ok (some elems) => .ok (make elems)

namespace TypeSpec

mutual

/-- `DefaultValue`; a nil result is the nil value. -/
def defaultValue : TypeSpec → Except Fault Value
  | ⟨type, elements, count, element, size, _, _, _⟩ =>
    match type with
    | .boolean => .ok (.boolean false)
    | .integer => .ok (.integer 0)
    | .unsigned => .ok (.unsigned 0)
    | .float => .ok (.float 0)
    | .bitString =>
      if size > 0 then
        match makeLength 1 ((size + 7) / 8) with
        | .error fault => .error fault
        | .ok length => .ok (newBitStringWithLength (List.replicate length 0) size)
      else .ok (.bitString [] 0)
    | .octetString => .ok (.octetString [])
    | .visibleString => .ok (.visibleString [])
    | .mmsString => .ok (.mmsString [])
    | .utcTime => .ok (.utcTime (Instant.ofUnix 0 0) 0x0a)
    | .binaryTime => .ok (.binaryTime 0)
    | .generalizedTime => .ok (.generalizedTime Instant.zero)
    | .bcd => .ok (.bcd 0)
    | .objectIdentifier => .ok (.objectIdentifier [0, 0])
    | .real => .ok (.real 0)
    | .booleanArray => .ok (newBooleanArray [] 0)
    | .struct => compositeOf .struct (defaultElements elements)
    | .array =>
      match element with
      | none => .ok (.array [])
      | some element =>
        if count = 0 then .ok (.array [])
        else
          match makeLength 8 count with
          | .error fault => .error fault
          | .ok length => compositeOf .array (List.replicate length element.defaultValue)
    | .dataAccessError | .namedType => .ok .nil

/-- The default values of the elements of a structure. -/
def defaultElements : List (Octets × TypeSpec) → List (Except Fault Value)
  | [] => []
  | (_, type) :: rest => type.defaultValue :: defaultElements rest

end

theorem defaultElements_eq (elements : List (Octets × TypeSpec)) :
    defaultElements elements = (elements.map Prod.snd).map defaultValue := by
  induction elements with
  | nil => rfl
  | cons element elements ih => rw [defaultElements, ih, List.map_cons, List.map_cons]

/-- What holds of every node holds of the root and of the nodes of the children. -/
theorem forall_nodesAt_iff {ts : TypeSpec} {condition : TypeSpec → Prop} :
    (∀ depth, ∀ node ∈ ts.nodesAt depth, condition node) ↔
      condition ts ∧ ∀ child ∈ ts.children, ∀ depth, ∀ node ∈ child.nodesAt depth, condition node :=
  Pdu.forall_levels_iff (fun _ => rfl) fun _ _ => rfl

end TypeSpec

/-! ## Elements -/

section Elements

variable {results : List (Except Fault Value)}

theorem collectElements_cons {value : Value} (present : value ≠ .nil) :
    collectElements (.ok value :: results) =
      match collectElements results with
      | .error fault => .error fault
      | .ok none => .ok none
      | .ok (some values) => .ok (some (value :: values)) := by
  cases value with
  | nil => exact (present rfl).elim
  | _ => rfl

/-- The loop ends with nil only if it met one, and otherwise with what was returned. -/
theorem collectElements_ok {outcome : Option (List Value)}
    (collected : collectElements results = .ok outcome) :
    match outcome with
    | none => .ok .nil ∈ results
    | some values =>
      List.Forall₂ (fun result value => result = .ok value ∧ value ≠ .nil) results values := by
  induction results generalizing outcome with
  | nil =>
    cases collected
    exact .nil
  | cons result results ih =>
    cases result with
    | error fault => cases collected
    | ok value =>
      by_cases absent : value = .nil
      · subst absent
        cases collected
        exact List.mem_cons_self
      · rw [collectElements_cons absent] at collected
        cases rest : collectElements results with
        | error fault => rw [rest] at collected; cases collected
        | ok inner =>
          rw [rest] at collected
          have below := ih rest
          cases inner with
          | none =>
            cases collected
            exact List.mem_cons_of_mem _ below
          | some values =>
            cases collected
            exact .cons ⟨rfl, absent⟩ below

/-- Without faults among the elements the loop has none. -/
theorem collectElements_returns (returned : ∀ result ∈ results, ∃ value, result = .ok value) :
    ∃ outcome, collectElements results = .ok outcome := by
  induction results with
  | nil => exact ⟨_, rfl⟩
  | cons result results ih =>
    obtain ⟨first, others⟩ := List.forall_mem_cons.mp returned
    obtain ⟨value, rfl⟩ := first
    obtain ⟨outcome, collected⟩ := ih others
    by_cases absent : value = .nil
    · subst absent
      exact ⟨_, rfl⟩
    · rw [collectElements_cons absent, collected]
      cases outcome <;> exact ⟨_, rfl⟩

/-- A composite is nil if one of its elements is, and otherwise has all of them. -/
theorem compositeOf_ok {make : List Value → Value} {value : Value}
    (made : compositeOf make results = .ok value) :
    (value = .nil ∧ .ok .nil ∈ results) ∨
      ∃ values, value = make values ∧
        List.Forall₂ (fun result value => result = .ok value ∧ value ≠ .nil) results values := by
  rw [compositeOf] at made
  cases collected : collectElements results with
  | error fault => rw [collected] at made; cases made
  | ok outcome =>
    rw [collected] at made
    have found := collectElements_ok collected
    cases outcome with
    | none =>
      cases made
      exact .inl ⟨rfl, found⟩
    | some values =>
      cases made
      exact .inr ⟨values, rfl, found⟩

theorem compositeOf_returns (make : List Value → Value)
    (returned : ∀ result ∈ results, ∃ value, result = .ok value) :
    ∃ value, compositeOf make results = .ok value := by
  obtain ⟨outcome, collected⟩ := collectElements_returns returned
  rw [compositeOf, collected]
  cases outcome <;> exact ⟨_, rfl⟩

end Elements

/-! ## Types from a peer -/

namespace TypeSpec

/-- The allocation for one node succeeds. -/
def Allocatable (ts : TypeSpec) : Prop :=
  (ts.type = .array → 0 ≤ ts.count.toInt ∧ ts.count.toInt < 2 ^ 31) ∧
    (ts.type = .bitString → ts.size.toInt < 2 ^ 31)

theorem sizeOctets_toInt {size : Int64} (positive : 0 < size.toInt) (small : size.toInt < 2 ^ 31) :
    ((size + 7) / 8).toInt = (size.toInt + 7) / 8 := by
  have seven : (7 : Int64).toInt = 7 := rfl
  have eight : (8 : Int64).toInt = 8 := rfl
  have sum : (size + 7).toInt = size.toInt + 7 := by
    rw [Int64.toInt_add, seven]
    exact Int.bmod_eq_of_le (by omega) (by omega)
  rw [Int64.toInt_div, sum, eight, Int.tdiv_eq_ediv_of_nonneg (by omega)]
  exact Int.bmod_eq_of_le (by omega) (by omega)

theorem makeLength_returns {width : Nat} {length : Int64} (narrow : width ≤ 8)
    (nonneg : 0 ≤ length.toInt) (small : length.toInt < 2 ^ 31) :
    makeLength width length = .ok length.toInt.toNat := by
  rw [makeLength_ok_iff, maxAlloc]
  refine ⟨nonneg, ?_, Int.toNat_of_nonneg nonneg⟩
  calc width * length.toInt.toNat ≤ 8 * 2 ^ 31 := Nat.mul_le_mul narrow (by omega)
    _ ≤ 2 ^ 48 := by norm_num

/-- A value is built for every type whose allocations succeed. -/
theorem defaultValue_returns (ts : TypeSpec)
    (allocatable : ∀ depth, ∀ node ∈ ts.nodesAt depth, node.Allocatable) :
    ∃ value, ts.defaultValue = .ok value := by
  induction ts using induction_children with
  | step ts ih =>
    obtain ⟨root, below⟩ := forall_nodesAt_iff.mp allocatable
    have child : ∀ child ∈ ts.children, ∃ value, child.defaultValue = .ok value :=
      fun child known => ih child known (below child known)
    obtain ⟨type, elements, count, element, size, formatWidth, exponentWidth, typeName⟩ := ts
    cases type with
    | bitString =>
      rw [defaultValue]
      split_ifs with sized
      · have positive : 0 < size.toInt := Int64.lt_iff_toInt_lt.mp sized
        have small : size.toInt < 2 ^ 31 := root.2 rfl
        have octets := sizeOctets_toInt positive small
        rw [makeLength_returns (by omega) (by omega) (by omega)]
        exact ⟨_, rfl⟩
      · exact ⟨_, rfl⟩
    | struct =>
      rw [defaultValue, defaultElements_eq]
      refine compositeOf_returns _ fun result member => ?_
      obtain ⟨type, known, rfl⟩ := List.mem_map.mp member
      exact child type known
    | array =>
      cases element with
      | none => exact ⟨_, by rw [defaultValue]⟩
      | some element =>
        rw [defaultValue]
        split_ifs
        · exact ⟨_, rfl⟩
        · rw [makeLength_returns (by omega) (root.1 rfl).1 (root.1 rfl).2]
          refine compositeOf_returns _ fun result member => ?_
          rw [List.eq_of_mem_replicate member]
          exact child element (by simp [children])
    | _ => exact ⟨_, by rw [defaultValue]⟩

end TypeSpec

section Peer

variable {quote : Octets → String}

/-- The numbers that a peer may announce for the allocation of one node. -/
def WireAllocatable (ts : TypeSpecWire) : Prop :=
  (∀ count element, ts = .array count element → 0 ≤ count.toInt ∧ count.toInt < 2 ^ 31) ∧
    ∀ size, ts = .bitString size → size.toInt < 2 ^ 31

theorem allocatable_of_wire {wire : TypeSpecWire} {spec : TypeSpec}
    (converted : typeSpecFromWire quote wire = .ok spec)
    (allocatable : ∀ depth, ∀ node ∈ wire.nodesAt depth, WireAllocatable node) :
    ∀ depth, ∀ node ∈ spec.nodesAt depth, node.Allocatable := by
  induction spec using TypeSpec.induction_children generalizing wire with
  | step spec ih =>
    obtain ⟨root, below⟩ := TypeSpecWire.forall_nodesAt_iff.mp allocatable
    rw [TypeSpec.forall_nodesAt_iff]
    cases wire with
    | array count element =>
      cases element with
      | none =>
        cases converted
        exact ⟨⟨fun _ => root.1 count none rfl, by rintro ⟨⟩⟩, by rintro _ ⟨⟩⟩
      | some element =>
        simp only [typeSpecFromWire] at converted
        cases inner : typeSpecFromWire quote element with
        | error text => rw [inner] at converted; cases converted
        | ok elemTS =>
          rw [inner] at converted
          cases converted
          refine ⟨⟨fun _ => root.1 count _ rfl, by rintro ⟨⟩⟩, fun child known => ?_⟩
          obtain rfl : child = elemTS := List.mem_singleton.mp known
          exact ih child known inner (below element (List.mem_singleton_self element))
    | struct components =>
      simp only [typeSpecFromWire] at converted
      cases inner : componentsFromWire quote 0 components with
      | error text => rw [inner] at converted; cases converted
      | ok elements =>
        rw [inner] at converted
        cases converted
        refine ⟨⟨by rintro ⟨⟩, by rintro ⟨⟩⟩, fun child known => ?_⟩
        obtain ⟨element, member, rfl⟩ := List.mem_map.mp known
        obtain ⟨component, source, typed, -⟩ :=
          Tracing.exists_of_forall₂_right (componentsFromWire_eq_ok.mp inner) member
        exact ih _ known typed (below component.2 (List.mem_map_of_mem source))
    | bitString size =>
      cases converted
      exact ⟨⟨by rintro ⟨⟩, fun _ => root.2 size rfl⟩, by rintro _ ⟨⟩⟩
    | typeName name =>
      cases name with
      | none =>
        cases converted
        exact ⟨⟨by rintro ⟨⟩, by rintro ⟨⟩⟩, by rintro _ ⟨⟩⟩
      | some name =>
        simp only [typeSpecFromWire] at converted
        split at converted <;> cases converted
        exact ⟨⟨by rintro ⟨⟩, by rintro ⟨⟩⟩, by rintro _ ⟨⟩⟩
    | other tag => cases converted
    | _ =>
      cases converted
      exact ⟨⟨by rintro ⟨⟩, by rintro ⟨⟩⟩, by rintro _ ⟨⟩⟩

/-- What `DecodeTypeSpec` accepts with non-negative counts can be allocated. -/
theorem wireAllocatable_of_decode {data : Octets} {ts : TypeSpecWire}
    (decoded : decodeTypeSpec data = .ok ts) (nonneg : ts.CountsMeet (0 ≤ ·.toInt)) :
    ∀ depth, ∀ node ∈ ts.nodesAt depth, WireAllocatable node := by
  have signed := decodeTypeSpecBy_decodeInteger.mpr decoded
  have counts : ts.CountsMeet InInt32 :=
    countsMeet_of_decode (fun _ _ read => inInt32_of_decodeInteger_ok read) signed
  have sizes := bitString_inInt32_of_decode signed
  intro depth node member
  refine ⟨fun count element same => ⟨nonneg depth node member count element same, ?_⟩, ?_⟩
  · exact (counts depth node member count element same).2
  · intro size same
    exact (sizes depth node member size same).2

/-- **Which array sizes survive.** A type that `DecodeTypeSpec` accepts has only non-negative
counts exactly when reading its counts as the Unsigned32 that they are gives the same type. A type
whose counts are all in canonical encoding is decoded to these counts exactly when they are below
`2 ^ 31`. For a type from a peer without negative counts `DefaultValue` returns. -/
theorem arrayCounts_survive_iff (quote : Octets → String) (data : Octets) (ts : TypeSpecWire) :
    (decodeTypeSpec data = .ok ts →
      (ts.CountsMeet (0 ≤ ·.toInt) ↔
        decodeTypeSpecBy unsignedCount (maxTypeSpecNestingDepth + 1) data = .ok ts)) ∧
    (decodeTypeSpecBy canonicalCount (maxTypeSpecNestingDepth + 1) data = .ok ts →
      (decodeTypeSpec data = .ok ts ↔ ts.CountsMeet (·.toInt < 2 ^ 31))) ∧
    (decodeTypeSpec data = .ok ts → ts.CountsMeet (0 ≤ ·.toInt) →
      ∀ spec, typeSpecFromWire quote ts = .ok spec → ∃ value, spec.defaultValue = .ok value) := by
  refine ⟨fun decoded => ⟨fun nonneg => ?_, fun read => ?_⟩,
    fun canonical => ⟨fun decoded => ?_, fun small => ?_⟩, fun decoded nonneg spec converted => ?_⟩
  · exact decodeTypeSpecBy_transfer (fun _ _ => unsignedCount_of_decodeInteger)
      (decodeTypeSpecBy_decodeInteger.mpr decoded) nonneg
  · exact countsMeet_of_decode (fun _ _ => nonneg_of_unsignedCount) read
  · have counts : ts.CountsMeet InInt32 :=
      countsMeet_of_decode (fun _ _ read => inInt32_of_decodeInteger_ok read)
        (decodeTypeSpecBy_decodeInteger.mpr decoded)
    exact fun depth node member count element same =>
      (counts depth node member count element same).2
  · exact decodeTypeSpecBy_decodeInteger.mp
      (decodeTypeSpecBy_transfer (fun _ _ => decodeInteger_of_canonicalCount) canonical small)
  · exact spec.defaultValue_returns
      (allocatable_of_wire converted (wireAllocatable_of_decode decoded nonneg))

/-- Three booleans. -/
theorem arrayCounts_survive_three :
    decodeTypeSpecBy unsignedCount (maxTypeSpecNestingDepth + 1)
        [0xa1, 0x07, 0x81, 0x01, 0x03, 0xa2, 0x02, 0x83, 0x00] = .ok (.array 3 (some .boolean)) ∧
      ∃ value, ({ type := .array, count := 3, element := some { type := .boolean } } :
        TypeSpec).defaultValue = .ok value := by
  have decoded : decodeTypeSpec [0xa1, 0x07, 0x81, 0x01, 0x03, 0xa2, 0x02, 0x83, 0x00] =
      .ok (.array 3 (some .boolean)) := by with_unfolding_all rfl
  have nonneg : (TypeSpecWire.array 3 (some .boolean)).CountsMeet (0 ≤ ·.toInt) := by
    rw [TypeSpecWire.countsMeet_iff]
    refine ⟨by rintro _ _ ⟨⟩; decide, List.forall_mem_singleton.mpr ?_⟩
    rw [TypeSpecWire.countsMeet_iff]
    exact ⟨by rintro _ _ ⟨⟩, by rintro _ ⟨⟩⟩
  obtain ⟨unsigned, -, allocated⟩ := arrayCounts_survive_iff (fun _ => "")
    [0xa1, 0x07, 0x81, 0x01, 0x03, 0xa2, 0x02, 0x83, 0x00] (.array 3 (some .boolean))
  exact ⟨(unsigned decoded).mp nonneg, allocated decoded nonneg _ rfl⟩

/-- A count of one octet ff is accepted as `-1`, for which `DefaultValue` panics, and the canonical
encoding of `2 ^ 31` is refused. -/
theorem arrayCounts_not_survive :
    (∃ spec, decodeTypeSpec [0xa1, 0x07, 0x81, 0x01, 0xff, 0xa2, 0x02, 0x83, 0x00] =
        .ok (.array (-1) (some .boolean)) ∧
      typeSpecFromWire (fun _ => "") (.array (-1) (some .boolean)) = .ok spec ∧
      spec.defaultValue = .error .sliceOutOfRange) ∧
    encodeUint32 0x80000000 = [0x00, 0x80, 0x00, 0x00, 0x00] ∧
    decodeTypeSpecBy canonicalCount (maxTypeSpecNestingDepth + 1)
        [0xa1, 0x0b, 0x81, 0x05, 0x00, 0x80, 0x00, 0x00, 0x00, 0xa2, 0x02, 0x83, 0x00] =
      .ok (.array 0x80000000 (some .boolean)) ∧
    ∃ text, decodeTypeSpec
        [0xa1, 0x0b, 0x81, 0x05, 0x00, 0x80, 0x00, 0x00, 0x00, 0xa2, 0x02, 0x83, 0x00] =
      .error text := by
  refine ⟨⟨_, by with_unfolding_all rfl, rfl, ?_⟩, by decide +kernel, by with_unfolding_all rfl,
    _, by with_unfolding_all rfl⟩
  rw [TypeSpec.defaultValue]
  rfl

end Peer

end GoMms.Mms
