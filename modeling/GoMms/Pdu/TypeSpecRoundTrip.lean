import GoMms.Pdu.TypeSpec

/-!
# Type specifications survive the wire

Which type specifications the decoder accepts, and what it makes of them. Every record of the
encoding has one equation for its decoder; a tree is accepted exactly when each of its nodes is
readable and none lies too deep (`decodeTypeSpecWithDepth_encode_iff`).
-/

namespace GoMms.Pdu

open Octets Berutil

/-- What holds on every level of a tree holds of the root and, one level up, of the children. -/
theorem forall_levels_iff {α : Type} {children : α → List α} {level : Nat → α → List α}
    (root : ∀ tree, level 0 tree = [tree])
    (below : ∀ depth tree, level (depth + 1) tree = (children tree).flatMap (level depth))
    {condition : Nat → α → Prop} {tree : α} :
    (∀ depth, ∀ node ∈ level depth tree, condition depth node) ↔
      condition 0 tree ∧ ∀ child ∈ children tree, ∀ depth, ∀ node ∈ level depth child,
        condition (depth + 1) node := by
  constructor
  · intro every
    refine ⟨every 0 tree (by simp [root]), fun child known depth node member => ?_⟩
    refine every (depth + 1) node ?_
    rw [below]
    exact List.mem_flatMap.mpr ⟨child, known, member⟩
  · rintro ⟨top, deeper⟩ depth node member
    cases depth with
    | zero =>
      rw [root, List.mem_singleton] at member
      exact member ▸ top
    | succ depth =>
      rw [below] at member
      obtain ⟨child, known, inside⟩ := List.mem_flatMap.mp member
      exact deeper child known depth node inside

namespace TypeSpecWire

/-- The element type of an array, the component types of a structure. -/
def children : TypeSpecWire → List TypeSpecWire
  | .array _ element => element.toList
  | .struct components => components.map Prod.snd
  | _ => []

/-- The nodes of a tree at a given depth below its root. -/
def nodesAt : (depth : Nat) → TypeSpecWire → List TypeSpecWire
  | 0, ts => [ts]
  | depth + 1, ts => ts.children.flatMap (nodesAt depth)

variable {ts : TypeSpecWire}

theorem forall_nodesAt_iff {condition : Nat → TypeSpecWire → Prop} :
    (∀ depth, ∀ node ∈ ts.nodesAt depth, condition depth node) ↔
      condition 0 ts ∧ ∀ child ∈ ts.children, ∀ depth, ∀ node ∈ child.nodesAt depth,
        condition (depth + 1) node :=
  forall_levels_iff (fun _ => rfl) fun _ _ => rfl

/-- What the decoder asks of one node: an array has an element type, numbers are in the int32
range, a name has one of the three scopes. -/
def Readable : TypeSpecWire → Prop
  | .typeName name => ∃ known ∈ name, known.KnownScope
  | .array count element => InInt32 count ∧ element ≠ none
  | .bitString size | .integer size | .unsigned size | .octetString size | .visibleString size
  | .bcd size | .mmsString size => InInt32 size
  | .float formatWidth expWidth => InInt32 formatWidth ∧ InInt32 expWidth
  | .other _ => False
  | .struct _ | .boolean | .generalizedTime | .binaryTime _ | .objID | .utcTime => True

/-- What the encoder asks of one node: a name has one of the three scopes. -/
def Encodable : TypeSpecWire → Prop
  | .typeName name => ∃ known ∈ name, known.KnownScope
  | .other _ => False
  | _ => True

theorem Readable.encodable (readable : ts.Readable) : ts.Encodable := by
  cases ts with
  | typeName name => exact readable
  | other tag => exact readable
  | _ => trivial

/-- Every node is readable and has fewer than `levels` levels above it. -/
def ReadableWithin : (levels : Nat) → TypeSpecWire → Prop
  | 0, _ => False
  | levels + 1, ts => ts.Readable ∧ ∀ child ∈ ts.children, child.ReadableWithin levels

theorem readableWithin_iff {levels : Nat} :
    ts.ReadableWithin levels ↔
      ∀ depth, ∀ node ∈ ts.nodesAt depth, depth < levels ∧ node.Readable := by
  induction levels generalizing ts with
  | zero =>
    constructor
    · exact False.elim
    · intro nodes
      exact absurd (nodes 0 ts List.mem_cons_self).1 (Nat.lt_irrefl 0)
  | succ levels ih =>
    rw [forall_nodesAt_iff, ReadableWithin]
    simp only [ih, Nat.succ_pos, true_and, Nat.add_lt_add_iff_right]

mutual

/-- What arrives of a type: a name keeps its domain only in domain scope. -/
def received : TypeSpecWire → TypeSpecWire
  | .typeName name => .typeName (name.map ObjectNameWire.received)
  | .array count none => .array count none
  | .array count (some element) => .array count (some element.received)
  | .struct components => .struct (receivedComponents components)
  | .boolean => .boolean
  | .bitString size => .bitString size
  | .integer size => .integer size
  | .unsigned size => .unsigned size
  | .float formatWidth expWidth => .float formatWidth expWidth
  | .octetString size => .octetString size
  | .visibleString size => .visibleString size
  | .generalizedTime => .generalizedTime
  | .binaryTime full => .binaryTime full
  | .bcd size => .bcd size
  | .objID => .objID
  | .mmsString size => .mmsString size
  | .utcTime => .utcTime
  | .other tag => .other tag

def receivedComponents : List (Octets × TypeSpecWire) → List (Octets × TypeSpecWire)
  | [] => []
  | (name, type) :: rest => (name, type.received) :: receivedComponents rest

end

end TypeSpecWire

open TypeSpecWire

/-! ## Records -/

section Records

variable {read : Octets → Except String TypeSpecWire}

theorem decodeTypeSpecWithDepth_encodeTLV (levels : Nat) (tag : UInt8) {content : Octets}
    (short : content.length < maxContent) :
    decodeTypeSpecWithDepth (levels + 1) (encodeTLV tag content) =
      decodeTypeSpecFromTLV (decodeTypeSpecWithDepth levels) tag content := by
  rw [decodeTypeSpecWithDepth, decodeTLV_encodeTLV tag short]

/-! The tags of the types whose content is a record select its decoder. -/

theorem decodeTypeSpecFromTLV_float (content : Octets) :
    decodeTypeSpecFromTLV read 0xa7 content = decodeFloatTypeSpec content := rfl

theorem decodeTypeSpecFromTLV_array (content : Octets) :
    decodeTypeSpecFromTLV read 0xa1 content = decodeArrayTypeSpec read content := rfl

theorem decodeTypeSpecFromTLV_struct (content : Octets) :
    decodeTypeSpecFromTLV read 0xa2 content = decodeStructureTypeSpec read content := rfl

theorem decodeTypeSpecFromTLV_typeName (content : Octets) :
    decodeTypeSpecFromTLV read 0xa0 content =
      match decodeObjectName content with
      | .error text => .error ("typespec typeName: " ++ text)
      | .ok name => .ok (.typeName (some name)) := rfl

theorem length_encodeSmallInt_lt (value : Int64) : (encodeSmallInt value).length < maxContent :=
  (length_encodeInt_le value).trans_lt (by decide)

/-- A number is read back exactly if it is in the int32 range. -/
theorem decodeInteger_encodeSmallInt (value : Int64) :
    InInt32 value ∧ decodeInteger (encodeSmallInt value) = .ok value ∨
      ¬InInt32 value ∧ ∃ text, decodeInteger (encodeSmallInt value) = .error text := by
  by_cases fits : InInt32 value
  · exact .inl ⟨fits, decodeInteger_encodeInt fits⟩
  · refine .inr ⟨fits, ?_⟩
    cases number : decodeInteger (encodeSmallInt value) with
    | error text => exact ⟨text, rfl⟩
    | ok read => exact absurd (inInt32_of_decodeInteger number) fits

variable {result : TypeSpecWire}

theorem decodeSized_encode_iff {field : String} {make : Int64 → TypeSpecWire} {size : Int64} :
    decodeSized field make (encodeSmallInt size) = .ok result ↔
      InInt32 size ∧ result = make size := by
  obtain ⟨fits, read⟩ | ⟨wide, text, refused⟩ := decodeInteger_encodeSmallInt size
  · simp [decodeSized, read, fits, eq_comm]
  · simp [decodeSized, refused, wide]

theorem decodeFloatTypeSpec_encode_iff {formatWidth expWidth : Int64} :
    decodeFloatTypeSpec (encodeTLV 0x02 (encodeSmallInt formatWidth) ++
        encodeTLV 0x02 (encodeSmallInt expWidth)) = .ok result ↔
      (InInt32 formatWidth ∧ InInt32 expWidth) ∧ result = .float formatWidth expWidth := by
  have first := fun context mismatch => requiredField_encodeTLV context mismatch 0x02
    (length_encodeSmallInt_lt formatWidth) [] (encodeTLV 0x02 (encodeSmallInt expWidth))
  have second := fun context mismatch => requiredField_encodeTLV context mismatch 0x02
    (length_encodeSmallInt_lt expWidth) (encodeTLV 0x02 (encodeSmallInt formatWidth)) []
  simp only [List.nil_append, List.append_nil, List.length_nil, Nat.zero_add,
    length_encodeTLV] at first second
  simp only [decodeFloatTypeSpec, first, second, List.length_append, length_encodeTLV]
  obtain ⟨fits, read⟩ | ⟨wide, text, refused⟩ := decodeInteger_encodeSmallInt formatWidth
  · obtain ⟨fits', read'⟩ | ⟨wide', text', refused'⟩ := decodeInteger_encodeSmallInt expWidth
    · simp [read, read', fits, fits', eq_comm]
    · simp [read, refused', wide']
  · simp [refused, wide]

/-- An array type without its element type is refused. -/
theorem decodeArrayTypeSpec_missing (count : Int64) :
    ∃ text, decodeArrayTypeSpec read (encodeTLV 0x81 (encodeSmallInt count)) = .error text := by
  have packed := optionalField_other "array packed: " (show (0x81 : UInt8) ≠ 0x80 by decide)
    (encodeSmallInt count) [] []
  have number := fun context mismatch => requiredField_encodeTLV context mismatch 0x81
    (length_encodeSmallInt_lt count) [] []
  have filled := two_le_tlvSize (encodeSmallInt count).length
  simp only [List.nil_append, List.append_nil, List.length_nil, Nat.zero_add] at packed number
  simp only [decodeArrayTypeSpec, packed, number, length_encodeTLV]
  rw [if_neg (by omega)]
  cases decodeInteger (encodeSmallInt count) with
  | error text => exact ⟨_, rfl⟩
  | ok count =>
    simp only [ge_iff_le, le_refl, if_true]
    exact ⟨_, rfl⟩

theorem decodeArrayTypeSpec_encode_iff {count : Int64} {element : Octets}
    (short : element.length < maxContent) :
    decodeArrayTypeSpec read (encodeTLV 0x81 (encodeSmallInt count) ++ encodeTLV 0xa2 element) =
        .ok result ↔
      InInt32 count ∧ ∃ type, read element = .ok type ∧ result = .array count (some type) := by
  have packed := optionalField_other "array packed: " (show (0x81 : UInt8) ≠ 0x80 by decide)
    (encodeSmallInt count) [] (encodeTLV 0xa2 element)
  have number := fun context mismatch => requiredField_encodeTLV context mismatch 0x81
    (length_encodeSmallInt_lt count) [] (encodeTLV 0xa2 element)
  have type := fun context mismatch => requiredField_encodeTLV context mismatch 0xa2 short
    (encodeTLV 0x81 (encodeSmallInt count)) []
  have numberFilled := two_le_tlvSize (encodeSmallInt count).length
  have typeFilled := two_le_tlvSize element.length
  simp only [List.nil_append, List.append_nil, List.length_nil, Nat.zero_add,
    length_encodeTLV] at packed number type
  simp only [decodeArrayTypeSpec, packed, number, type, List.length_append, length_encodeTLV]
  rw [if_neg (by omega)]
  obtain ⟨fits, counted⟩ | ⟨wide, text, refused⟩ := decodeInteger_encodeSmallInt count
  · simp only [counted]
    rw [if_neg (by omega), if_neg (by simp)]
    cases below : read element <;> simp [fits, eq_comm]
  · simp [refused, wide]

/-- The contents of a structure component. -/
def componentBody (name type : Octets) : Octets :=
  (if name ≠ [] then encodeTLV 0x80 name else []) ++ encodeTLV 0xa1 type

theorem decodeStructComponent_encode_iff {name type : Octets} {component : Octets × TypeSpecWire}
    (named : name.length < maxContent) (short : type.length < maxContent) :
    decodeStructComponent read (componentBody name type) = .ok component ↔
      component.1 = name ∧ read type = .ok component.2 := by
  have filled := two_le_tlvSize type.length
  unfold componentBody
  by_cases empty : name = []
  · subst empty
    have absent := optionalField_other "componentName: " (show (0xa1 : UInt8) ≠ 0x80 by decide)
      type [] []
    have required := fun context mismatch =>
      requiredField_encodeTLV context mismatch 0xa1 short [] []
    simp only [List.nil_append, List.append_nil, List.length_nil, Nat.zero_add] at absent required
    simp only [ne_eq, not_true_eq_false, if_false, List.nil_append, decodeStructComponent, absent,
      required, length_encodeTLV]
    rw [if_neg (by omega)]
    cases read type <;> simp [Prod.ext_iff, eq_comm]
  · have present := optionalField_encodeTLV "componentName: " 0x80 named [] (encodeTLV 0xa1 type)
    have required := fun context mismatch =>
      requiredField_encodeTLV context mismatch 0xa1 short (encodeTLV 0x80 name) []
    simp only [List.nil_append, List.append_nil, List.length_nil, Nat.zero_add,
      length_encodeTLV] at present required
    simp only [ne_eq, empty, not_false_eq_true, if_true, decodeStructComponent, present, required,
      List.length_append, length_encodeTLV]
    rw [if_neg (by omega)]
    cases read type <;> simp [Prod.ext_iff, eq_comm]

theorem decodeStructureTypeSpec_encode_iff {components : Octets}
    (short : components.length < maxContent) :
    decodeStructureTypeSpec read (encodeTLV 0xa1 components) = .ok result ↔
      ∃ found, decodeStructComponents read components = .ok found ∧ result = .struct found := by
  have packed := optionalField_other "structure packed: " (show (0xa1 : UInt8) ≠ 0x80 by decide)
    components [] []
  have required := fun context mismatch =>
    requiredField_encodeTLV context mismatch 0xa1 short [] []
  have filled := two_le_tlvSize components.length
  simp only [List.nil_append, List.append_nil, List.length_nil, Nat.zero_add] at packed required
  simp only [decodeStructureTypeSpec, packed, required, length_encodeTLV]
  rw [if_neg (by omega), if_neg (by simp)]
  cases decodeStructComponents read components <;> simp [eq_comm]

/-- The component loop accepts what it can parse one by one. -/
theorem decodeStructComponents_ok_iff {bodies : List Octets}
    (short : ∀ body ∈ bodies, body.length < maxContent)
    {components : List (Octets × TypeSpecWire)} :
    decodeStructComponents read (encodeFields (bodies.map fun body => (tagSequence, body))) =
        .ok components ↔
      List.Forall₂ (fun body component => decodeStructComponent read body = .ok component) bodies
        components := by
  have collects : ∀ (found : List (Octets × TypeSpecWire)) (body : Octets) result,
      found.length < bodies.length →
      (structComponentField read found tagSequence body = .ok result ↔
        ∃ component, decodeStructComponent read body = .ok component ∧
          result = found ++ [component]) := by
    intro found body result _
    rw [structComponentField, if_neg (by simp)]
    cases decodeStructComponent read body with
    | error text => simp
    | ok component => simp [eq_comm]
  exact decodeFields_collect_iff _ collects (Nat.le_refl _) short

end Records

/-! ## Trees -/

section Trees

variable {quote : Octets → String}

theorem receivedComponents_eq (components : List (Octets × TypeSpecWire)) :
    receivedComponents components =
      components.map fun component => (component.1, component.2.received) := by
  induction components with
  | nil => rfl
  | cons component components ih => rw [receivedComponents, ih, List.map_cons]

/-- A component and the contents it is written as. -/
def Writes (quote : Octets → String) (component : Octets × TypeSpecWire) (body : Octets) : Prop :=
  ∃ content, typeSpecContent quote component.2 = .ok content ∧
    body = componentBody component.1 (encodeTLV component.2.tag content)

variable {components : List (Octets × TypeSpecWire)} {octets : Octets} {levels : Nat}

theorem componentsContent_ok_iff :
    componentsContent quote components = .ok octets ↔
      ∃ bodies, List.Forall₂ (Writes quote) components bodies ∧
        octets = encodeFields (bodies.map fun body => (tagSequence, body)) := by
  induction components generalizing octets with
  | nil =>
    rw [componentsContent]
    constructor
    · intro same
      cases same
      exact ⟨[], .nil, rfl⟩
    · rintro ⟨bodies, none, rfl⟩
      cases none
      rfl
  | cons component components ih =>
    obtain ⟨name, type⟩ := component
    rw [componentsContent]
    constructor
    · intro written
      cases first : typeSpecContent quote type with
      | error text => simp only [first] at written; cases written
      | ok content =>
        cases others : componentsContent quote components with
        | error text => simp only [first, others] at written; cases written
        | ok rest =>
          simp only [first, others] at written
          cases written
          obtain ⟨bodies, all, rfl⟩ := ih.mp others
          exact ⟨componentBody name (encodeTLV type.tag content) :: bodies,
            .cons ⟨content, first, rfl⟩ all, rfl⟩
    · rintro ⟨bodies, all, rfl⟩
      cases all with
      | cons writes all =>
        obtain ⟨content, first, rfl⟩ := writes
        simp only [first, ih.mpr ⟨_, all, rfl⟩]
        rfl

/-- The parts of a component are shorter than its contents. -/
theorem length_le_componentBody (name type : Octets) :
    name.length ≤ (componentBody name type).length ∧
      type.length ≤ (componentBody name type).length := by
  have typed := length_le_encodeTLV 0xa1 type
  have named := length_le_encodeTLV 0x80 name
  unfold componentBody
  rw [List.length_append]
  split
  · omega
  rename_i empty
  obtain rfl : name = [] := not_not.mp empty
  simpa using typed

/-- The bodies of the components are shorter than all of them together. -/
theorem length_body_lt {bodies : List Octets} {limit : Nat}
    (short : (encodeFields (bodies.map fun body => (tagSequence, body))).length < limit) :
    ∀ body ∈ bodies, body.length < limit := by
  have records := length_lt_of_records short
  simpa using records

/-- The component loop, when it is known which types are read back. -/
theorem decodeStructComponents_encode_iff {read : Octets → Except String TypeSpecWire}
    {wellFormed : TypeSpecWire → Prop} (each : ∀ component ∈ components, ∀ {content result},
      typeSpecContent quote component.2 = .ok content → content.length < maxContent →
      (read (encodeTLV component.2.tag content) = .ok result ↔
        wellFormed component.2 ∧ result = component.2.received))
    (encoded : componentsContent quote components = .ok octets) (short : octets.length < maxContent)
    {found : List (Octets × TypeSpecWire)} :
    decodeStructComponents read octets = .ok found ↔
      (∀ component ∈ components, wellFormed component.2) ∧
        found = receivedComponents components := by
  obtain ⟨bodies, all, rfl⟩ := componentsContent_ok_iff.mp encoded
  have bounds := length_body_lt short
  rw [decodeStructComponents_ok_iff bounds]
  clear encoded short
  induction all generalizing found with
  | nil => simp [receivedComponents]
  | @cons component body components bodies writes all ih =>
    obtain ⟨here, others⟩ := List.forall_mem_cons.mp each
    obtain ⟨whole, behind⟩ := List.forall_mem_cons.mp bounds
    obtain ⟨content, written, rfl⟩ := writes
    obtain ⟨named, typed⟩ := length_le_componentBody component.1 (encodeTLV component.2.tag content)
    have inner := length_le_encodeTLV component.2.tag content
    have first : ∀ parsed, decodeStructComponent read
        (componentBody component.1 (encodeTLV component.2.tag content)) = .ok parsed ↔
        wellFormed component.2 ∧ parsed = (component.1, component.2.received) := by
      intro parsed
      rw [decodeStructComponent_encode_iff (named.trans_lt whole) (typed.trans_lt whole),
        here written (inner.trans_lt (typed.trans_lt whole)), Prod.ext_iff]
      exact and_left_comm
    rw [List.forall₂_cons_left_iff]
    simp only [first, ih others behind, List.forall_mem_cons, receivedComponents]
    constructor
    · rintro ⟨_, _, ⟨good, rfl⟩, ⟨goods, rfl⟩, rfl⟩
      exact ⟨⟨good, goods⟩, rfl⟩
    · rintro ⟨⟨good, goods⟩, rfl⟩
      exact ⟨_, _, ⟨good, rfl⟩, ⟨goods, rfl⟩, rfl⟩

variable {ts : TypeSpecWire}

/-- An encoded type is accepted exactly if it is a tree of readable nodes, and then it is decoded
to what arrives of it. -/
theorem decodeTypeSpecWithDepth_encode_iff {result : TypeSpecWire} {content : Octets}
    (encoded : typeSpecContent quote ts = .ok content) (short : content.length < maxContent) :
    decodeTypeSpecWithDepth levels (encodeTLV ts.tag content) = .ok result ↔
      ts.ReadableWithin levels ∧ result = ts.received := by
  induction levels generalizing ts result content with
  | zero => exact iff_of_false (by rintro ⟨⟩) And.left
  | succ levels ih =>
    rw [decodeTypeSpecWithDepth_encodeTLV _ _ short]
    have leaf : ∀ {node : TypeSpecWire}, node.children = [] →
        (node.ReadableWithin (levels + 1) ↔ node.Readable) := by
      intro node none
      rw [ReadableWithin, none]
      exact and_iff_left fun _ member => absurd member List.not_mem_nil
    have accepted : ∀ {node : TypeSpecWire}, node.children = [] → node.Readable →
        decodeTypeSpecFromTLV (decodeTypeSpecWithDepth levels) node.tag content =
          .ok node.received →
        (decodeTypeSpecFromTLV (decodeTypeSpecWithDepth levels) node.tag content = .ok result ↔
          node.ReadableWithin (levels + 1) ∧ result = node.received) := by
      intro node none root read
      rw [read, leaf none, and_iff_right root, Except.ok.injEq, eq_comm]
    cases ts with
    | boolean | generalizedTime | objID | utcTime =>
      cases encoded
      exact accepted rfl trivial rfl
    | binaryTime full =>
      cases encoded
      exact accepted rfl trivial (by cases full <;> rfl)
    | bitString size | integer size | unsigned size | octetString size | visibleString size
    | bcd size | mmsString size =>
      cases encoded
      rw [leaf rfl, tag, received]
      exact decodeSized_encode_iff
    | float formatWidth expWidth =>
      cases encoded
      rw [leaf rfl, tag, decodeTypeSpecFromTLV_float, received]
      exact decodeFloatTypeSpec_encode_iff
    | typeName name =>
      cases name with
      | none => cases encoded
      | some name =>
        cases octets : encodeObjectName name with
        | error text => rw [typeSpecContent, octets] at encoded; cases encoded
        | ok nameBytes =>
          have known := knownScope_of_encode octets
          obtain ⟨same, again, decoded⟩ := decodeObjectName_encode known
          rw [octets] at again
          rw [typeSpecContent, octets] at encoded
          cases again
          cases encoded
          refine accepted rfl ⟨name, rfl, known⟩ ?_
          rw [tag, decodeTypeSpecFromTLV_typeName, decoded short]
          rfl
    | array count element =>
      rw [tag, decodeTypeSpecFromTLV_array]
      cases element with
      | none =>
        cases encoded
        obtain ⟨text, refused⟩ := decodeArrayTypeSpec_missing count
        rw [refused]
        exact iff_of_false (by rintro ⟨⟩) fun readable => readable.1.1.2 rfl
      | some type =>
        cases inner : typeSpecContent quote type with
        | error text => rw [typeSpecContent, inner] at encoded; cases encoded
        | ok octets =>
          rw [typeSpecContent, inner] at encoded
          cases encoded
          have whole := length_le_encodeTLV 0xa2 (encodeTLV type.tag octets)
          have innermost := length_le_encodeTLV type.tag octets
          rw [List.length_append] at short
          rw [decodeArrayTypeSpec_encode_iff (by omega)]
          simp [ih inner (by omega), ReadableWithin, TypeSpecWire.Readable, children,
            received, and_assoc]
    | struct components =>
      rw [tag, decodeTypeSpecFromTLV_struct]
      cases inner : componentsContent quote components with
      | error text => rw [typeSpecContent, inner] at encoded; cases encoded
      | ok octets =>
        rw [typeSpecContent, inner] at encoded
        cases encoded
        have whole := length_le_encodeTLV 0xa1 octets
        rw [decodeStructureTypeSpec_encode_iff (by omega)]
        simp only [decodeStructComponents_encode_iff (fun _ _ => ih) inner
          (by omega : octets.length < maxContent), ReadableWithin, TypeSpecWire.Readable,
          children, List.forall_mem_map, received, true_and, and_assoc, exists_and_left,
          exists_eq_left]
    | other tag => cases encoded

/-- A node is encoded if its children are. -/
theorem typeSpecContent_of_children (root : ts.Encodable)
    (below : ∀ child ∈ ts.children, ∃ content, typeSpecContent quote child = .ok content) :
    ∃ content, typeSpecContent quote ts = .ok content := by
  cases ts with
  | typeName name =>
    obtain ⟨known, present, scope⟩ := root
    obtain rfl : name = some known := present
    obtain ⟨octets, encoded, -⟩ := decodeObjectName_encode scope
    exact ⟨octets, by simp only [typeSpecContent, encoded]⟩
  | array count element =>
    cases element with
    | none => exact ⟨_, rfl⟩
    | some type =>
      obtain ⟨content, encoded⟩ := below type (by simp [children])
      exact ⟨_, by rw [typeSpecContent, encoded]⟩
  | struct components =>
    have each := fun (component : Octets × TypeSpecWire) (member : component ∈ components) =>
      below component.2 (List.mem_map_of_mem member)
    choose! content encoded using each
    have written : List.Forall₂ (Writes quote) components (components.map fun component =>
        componentBody component.1 (encodeTLV component.2.tag (content component))) := by
      rw [List.forall₂_map_right_iff, List.forall₂_same]
      exact fun component member => ⟨_, encoded component member, rfl⟩
    exact ⟨_, by rw [typeSpecContent, componentsContent_ok_iff.mpr ⟨_, written, rfl⟩]⟩
  | other tag => exact root.elim
  | _ => exact ⟨_, rfl⟩

theorem typeSpecContent_of_readable {levels : Nat} {ts : TypeSpecWire}
    (readable : ts.ReadableWithin levels) : ∃ content, typeSpecContent quote ts = .ok content := by
  induction levels generalizing ts with
  | zero => exact readable.elim
  | succ levels ih =>
    exact typeSpecContent_of_children readable.1.encodable fun child known =>
      ih (readable.2 child known)

/-! ## The response -/

theorem unmarshalGetVarAccessResponse_encode (deletable : Bool) {tsBytes : Octets}
    (short : tsBytes.length < maxContent) :
    unmarshalGetVarAccessResponse (encodeTLV 0x80 [if deletable then 0xff else 0x00] ++
        encodeTLV 0xa2 tsBytes) =
      match decodeTypeSpec tsBytes with
      | .error text => .error ("pdu: getvaraccess response: " ++ text)
      | .ok ts => .ok ⟨deletable, ts⟩ := by
  have flag := fun context mismatch => requiredField_encodeTLV context mismatch 0x80
    (show [if deletable then (0xff : UInt8) else 0x00].length < maxContent from by
      rw [List.length_singleton]; decide) [] (encodeTLV 0xa2 tsBytes)
  have address := optionalField_other "pdu: getvaraccess response: address: "
    (show (0xa2 : UInt8) ≠ 0xa1 by decide) tsBytes
    (encodeTLV 0x80 [if deletable then 0xff else 0x00]) []
  have type := fun context mismatch => requiredField_encodeTLV context mismatch 0xa2 short
    (encodeTLV 0x80 [if deletable then 0xff else 0x00]) []
  have filled := two_le_tlvSize tsBytes.length
  simp only [List.nil_append, List.append_nil, List.length_nil, Nat.zero_add, length_encodeTLV,
    List.length_singleton] at flag address type
  simp only [unmarshalGetVarAccessResponse, flag, address, type, List.length_append,
    length_encodeTLV, List.length_singleton]
  rw [if_neg (by omega), if_neg (by omega)]
  cases decodeTypeSpec tsBytes with
  | error text => rfl
  | ok ts => cases deletable <;> simp

/-- A valid object name: one of the three scopes, and a domain in domain scope only. -/
def ObjectNameWire.Valid (name : ObjectNameWire) : Prop :=
  name.KnownScope ∧ (name.scope ≠ scopeDomain → name.domainID = [])

/-- A node within the limits of the codec whose reference, if it is one, is a valid name. -/
def TypeSpecWire.Valid (node : TypeSpecWire) : Prop :=
  node.Readable ∧ ∀ name, node = .typeName (some name) → name.Valid

/-- Valid names arrive unchanged, and so does a tree with no other names. -/
theorem received_of_valid
    (nodes : ∀ depth, ∀ node ∈ ts.nodesAt depth, depth < levels ∧ node.Valid) :
    ts.received = ts := by
  induction levels generalizing ts with
  | zero => exact absurd (nodes 0 ts List.mem_cons_self).1 (Nat.not_lt_zero _)
  | succ levels ih =>
    rw [forall_nodesAt_iff] at nodes
    simp only [Nat.add_lt_add_iff_right] at nodes
    obtain ⟨⟨-, -, names⟩, others⟩ := nodes
    have below : ∀ child ∈ ts.children, child.received = child :=
      fun child known => ih (others child known)
    cases ts with
    | typeName name =>
      cases name with
      | none => rfl
      | some name =>
        have valid := names name rfl
        have same : name.received = name := by
          unfold ObjectNameWire.received
          split
          · rfl
          · next other => rw [← valid.2 other]
        rw [received, Option.map_some, same]
    | array count element =>
      cases element with
      | none => rfl
      | some element => rw [received, below element (by simp [children])]
    | struct components =>
      have same : components.map (fun component => (component.1, component.2.received)) =
          components.map id :=
        List.map_congr_left fun component member => by
          rw [below component.2 (List.mem_map_of_mem member)]
          rfl
      rw [received, receivedComponents_eq, same, List.map_id]
    | _ => rfl

/-- A type specification of valid nodes, none of them deeper than the limit, survives the codec,
alone and in a response of GetVariableAccessAttributes. -/
theorem typeSpec_roundTrip (quote : Octets → String) (ts : TypeSpecWire)
    (nodes : ∀ depth, ∀ node ∈ ts.nodesAt depth, depth ≤ 32 ∧ node.Valid)
    (short : ∀ content, typeSpecContent quote ts = .ok content → content.length < 2 ^ 24) :
    ∃ octets, encodeTypeSpec quote ts = .ok octets ∧ decodeTypeSpec octets = .ok ts ∧
      (octets.length < 2 ^ 24 → ∀ deletable, ∃ payload,
        marshalGetVarAccessResponse quote deletable ts = .ok payload ∧
        unmarshalGetVarAccessResponse payload = .ok ⟨deletable, ts⟩) := by
  have within : ∀ depth, ∀ node ∈ ts.nodesAt depth, depth < 33 ∧ node.Valid :=
    fun depth node member =>
      ⟨Nat.lt_succ_of_le (nodes depth node member).1, (nodes depth node member).2⟩
  have readable : ts.ReadableWithin 33 := readableWithin_iff.mpr fun depth node member =>
    ⟨(within depth node member).1, (within depth node member).2.1⟩
  obtain ⟨content, encoded⟩ := @typeSpecContent_of_readable quote _ _ readable
  have bytes : encodeTypeSpec quote ts = .ok (encodeTLV ts.tag content) := by
    rw [encodeTypeSpec, encoded]
  have read : decodeTypeSpec (encodeTLV ts.tag content) = .ok ts := by
    rw [decodeTypeSpec, maxTypeSpecNestingDepth,
      decodeTypeSpecWithDepth_encode_iff encoded (short content encoded), received_of_valid within]
    exact ⟨readable, rfl⟩
  refine ⟨_, bytes, read, fun fits deletable => ⟨_, by rw [marshalGetVarAccessResponse, bytes], ?_⟩⟩
  rw [unmarshalGetVarAccessResponse_encode deletable fits, read]

/-- A structure of an array of floats, named `a`, and an unnamed reference to the type `t` of the
domain `d`. -/
def sampleType : TypeSpecWire :=
  .struct [([0x61], .array 3 (some (.float 32 8))),
    ([], .typeName (some { scope := scopeDomain, domainID := [0x64], itemID := [0x74] }))]

theorem typeSpec_roundTrip_sample :
    ∃ octets, encodeTypeSpec (fun _ => "") sampleType = .ok octets ∧
      decodeTypeSpec octets = .ok sampleType ∧
      (octets.length < 2 ^ 24 → ∀ deletable, ∃ payload,
        marshalGetVarAccessResponse (fun _ => "") deletable sampleType = .ok payload ∧
        unmarshalGetVarAccessResponse payload = .ok ⟨deletable, sampleType⟩) := by
  refine typeSpec_roundTrip (fun _ => "") sampleType ?_ ?_
  · intro depth node member
    rcases depth with _ | _ | _ | depth
    · obtain rfl : node = sampleType := by simpa [nodesAt] using member
      exact ⟨by decide, trivial, fun name reference => by cases reference⟩
    · simp only [sampleType, nodesAt, children, List.map_cons, List.map_nil, List.flatMap_cons,
        List.flatMap_nil, List.append_nil, List.mem_append, List.mem_singleton] at member
      rcases member with rfl | rfl
      · exact ⟨by decide, ⟨by decide, by simp⟩, fun name reference => by cases reference⟩
      · refine ⟨by decide, ⟨_, rfl, .inr (.inl rfl)⟩, fun name reference => ?_⟩
        cases reference
        exact ⟨.inr (.inl rfl), fun other => (other rfl).elim⟩
    · obtain rfl : node = .float 32 8 := by simpa [sampleType, nodesAt, children] using member
      exact ⟨by decide, ⟨by decide, by decide⟩, fun name reference => by cases reference⟩
    · simp [sampleType, nodesAt, children] at member
  · intro content encoded
    cases encoded
    decide

end Trees

end GoMms.Pdu
