import GoMms.Pdu.Data

/-!
# Data trees survive the wire

A tree within the limits of the decoder is encoded, and decoding the encoding wherever it
stands in a buffer gives the tree back and consumes exactly its octets
(`unmarshalDataElement_marshalData`). The leaf codecs contribute one inverse each; the
containers follow by induction on the levels the decoder may still enter.
-/

namespace GoMms.Pdu

open Octets Berutil

namespace DataValue

mutual

/-- The number of levels below the root. -/
def depth : DataValue → Nat
  | .array elements => depthBelow elements
  | .struct elements => depthBelow elements
  | _ => 0

/-- The depth of a container with the given children. -/
def depthBelow : List DataValue → Nat
  | [] => 0
  | value :: rest => max (value.depth + 1) (depthBelow rest)

end

mutual

/-- The nodes of the tree, the root first. -/
def nodes : DataValue → List DataValue
  | .array elements => .array elements :: nodesBelow elements
  | .struct elements => .struct elements :: nodesBelow elements
  | leaf => [leaf]

def nodesBelow : List DataValue → List DataValue
  | [] => []
  | value :: rest => value.nodes ++ nodesBelow rest

end

/-- The elements of an array or a structure. -/
def children : DataValue → List DataValue
  | .array elements | .struct elements => elements
  | _ => []

/-- What one node must satisfy, with the condition on object identifiers left open. Floating
point and generalized time, whose text and rounding are the platform's, are excluded. -/
def Admissible (oidOk : List Int64 → Prop) : DataValue → Prop
  | .boolean _ | .integer _ | .unsigned _ | .bcd _ | .octetString _ | .visibleString _ => True
  | .bitString bytes bitLen => WholeBits bytes bitLen
  | .booleanArray bytes bitLen => WholeBits bytes bitLen
  | .mmsString text => utf8Valid text = true
  | .utcTime time _ =>
    ∃ octets quality, octets.length = 8 ∧ decodeUTCTime octets = .ok (time, quality)
  | .binaryTime msEpoch => BinaryTimeRange msEpoch
  | .objectIdentifier oid => oidOk oid
  | .accessError errCode => 0 ≤ errCode.toInt ∧ errCode.toInt < 2 ^ 31
  | .array elements => elements.length ≤ maxAccessResults
  | .struct elements => elements.length ≤ maxAccessResults
  | .float _ _ | .real _ | .generalizedTime _ => False

/-- Two or more arcs below `2 ^ 31`, the first two of them valid. -/
def ShortArcs (oid : List Int64) : Prop :=
  ∃ first second rest, oid = first :: second :: rest ∧ 0 ≤ first.toInt ∧ first.toInt ≤ 2 ∧
    (first.toInt < 2 → second.toInt < 40) ∧ ∀ arc ∈ oid, 0 ≤ arc.toInt ∧ arc.toInt < 2 ^ 31

/-- The content of the node, when it has an encoding, fits a three-octet length. -/
def ShortContent (runtime : Runtime) (value : DataValue) : Prop :=
  ∀ content, marshalContent runtime value = .ok content → content.length < maxContent

instance (runtime : Runtime) (value : DataValue) : Decidable (value.ShortContent runtime) :=
  match encoded : marshalContent runtime value with
  | .error _ => .isTrue fun _ ok => by rw [encoded] at ok; cases ok
  | .ok content =>
    decidable_of_iff (content.length < maxContent)
      ⟨fun fits _ ok => by rw [encoded] at ok; cases ok; exact fits, fun short => short _ encoded⟩

/-- The trees within the limits of the codec. -/
structure Encodable (runtime : Runtime) (oidOk : List Int64 → Prop) (value : DataValue) : Prop where
  node_admissible : ∀ node ∈ value.nodes, node.Admissible oidOk
  content_lt : ∀ node ∈ value.nodes, node.ShortContent runtime
  depth_le : value.depth ≤ maxDataNestingDepth

/-! ## Children -/

theorem mem_nodes_self (value : DataValue) : value ∈ value.nodes := by
  cases value <;> simp [nodes]

variable {elements : List DataValue}

theorem nodes_subset_nodesBelow {child : DataValue} (member : child ∈ elements) :
    ∀ node ∈ child.nodes, node ∈ nodesBelow elements := by
  induction elements with
  | nil => simp at member
  | cons head rest ih =>
    intro node inside
    rw [nodesBelow, List.mem_append]
    rcases List.mem_cons.mp member with rfl | later
    · exact .inl inside
    · exact .inr (ih later node inside)

theorem exists_child_of_mem_nodesBelow {node : DataValue} (member : node ∈ nodesBelow elements) :
    ∃ child ∈ elements, node ∈ child.nodes := by
  induction elements with
  | nil => simp [nodesBelow] at member
  | cons head rest ih =>
    rw [nodesBelow, List.mem_append] at member
    rcases member with here | later
    · exact ⟨head, List.mem_cons_self, here⟩
    · obtain ⟨child, inside, below⟩ := ih later
      exact ⟨child, List.mem_cons_of_mem _ inside, below⟩

theorem depth_eq_children (value : DataValue) : value.depth = depthBelow value.children := by
  cases value <;> simp only [depth, children, depthBelow]

theorem nodes_eq_children (value : DataValue) :
    value.nodes = value :: nodesBelow value.children := by
  cases value <;> simp only [nodes, children, nodesBelow]

theorem depthBelow_le_iff {bound : Nat} :
    depthBelow elements ≤ bound ↔ ∀ child ∈ elements, child.depth + 1 ≤ bound := by
  induction elements with
  | nil => simp [depthBelow]
  | cons head rest ih => simp [depthBelow, ih]

theorem ShortArcs.codable {oid : List Int64} (short : ShortArcs oid) : CodableOid oid := by
  obtain ⟨first, second, rest, rfl, low, high, range, arcs⟩ := short
  have secondBound := arcs second (by simp)
  refine ⟨first, second, rest, rfl, low, high, secondBound.1, range, by omega, ?_⟩
  intro arc member
  have bound := arcs arc (by simp [member])
  exact ⟨bound.1, by omega⟩

theorem Admissible.mono {strong weak : List Int64 → Prop} (weaker : ∀ oid, strong oid → weak oid)
    {value : DataValue} (admissible : value.Admissible strong) : value.Admissible weak := by
  cases value with
  | objectIdentifier oid => exact weaker oid admissible
  | _ => exact admissible

end DataValue

open DataValue

section RoundTrip

variable (runtime : Runtime)

/-- A value the decoder with `levels` levels reads back from its encoding. -/
def ReadsBack (levels : Nat) (value : DataValue) : Prop :=
  ∃ wire, marshalData runtime value = .ok wire ∧ ∀ front rest : Octets,
    unmarshalDataElementWithDepth runtime levels (front ++ wire ++ rest) front.length =
      .ok (value, wire.length)

variable {runtime}

variable {levels : Nat} {value : DataValue}

theorem readsBack_of_content {content : Octets}
    (encoded : marshalContent runtime value = .ok content) (fits : content.length < maxContent)
    (decoded : decodeDataContent runtime (unmarshalDataElementWithDepth runtime levels) value.tag
      content = .ok value) : ReadsBack runtime (levels + 1) value := by
  refine ⟨encodeTLV value.tag content, by simp only [marshalData, encoded], ?_⟩
  intro front rest
  simp only [unmarshalDataElementWithDepth, decodeTLVAt_encodeTLV value.tag fits front rest,
    decoded,
    length_encodeTLV]

/-- Arrays and structures. -/
def DataValue.IsContainer : DataValue → Prop
  | .array _ | .struct _ => True
  | _ => False

/-- Every leaf codec inverts its encoder. -/
theorem leaf_roundTrip (admissible : value.Admissible CodableOid) (leaf : ¬value.IsContainer) :
    ∃ content, marshalContent runtime value = .ok content ∧
      ∀ read, decodeDataContent runtime read value.tag content = .ok value := by
  cases value with
  | array | struct => exact (leaf trivial).elim
  | float | real | generalizedTime => exact admissible.elim
  | boolean value =>
    refine ⟨[if value then 0xff else 0x00], by simp only [marshalContent], fun read => ?_⟩
    cases value <;> rfl
  | integer value | bcd value =>
    refine ⟨encodeSignedInt value, by simp only [marshalContent], fun read => ?_⟩
    simp only [decodeDataContent, tag, decodeSignedInt_encodeSignedInt]
  | unsigned value =>
    refine ⟨encodeUnsignedInt value, by simp only [marshalContent], fun read => ?_⟩
    simp only [decodeDataContent, tag, decodeUnsignedInt_encodeUnsignedInt]
  | bitString bytes bitLen | booleanArray bytes bitLen =>
    refine ⟨encodeBitString bytes bitLen, by simp only [marshalContent], fun read => ?_⟩
    simp only [decodeDataContent, tag, decodeBitString_encodeBitString admissible]
  | octetString content | visibleString content =>
    exact ⟨content, by simp only [marshalContent], fun read => rfl⟩
  | mmsString text =>
    have valid : utf8Valid text = true := admissible
    refine ⟨text, by simp only [marshalContent, valid, ↓reduceIte], fun read => ?_⟩
    simp only [decodeDataContent, tag, valid, ↓reduceIte]
  | utcTime time quality =>
    obtain ⟨octets, read, _, ok⟩ := admissible
    obtain ⟨content, encoded, _, decoded⟩ := encodeUTCTime_decodeUTCTime runtime ok quality
    refine ⟨content, by simp only [marshalContent, encoded], fun read => ?_⟩
    simp only [decodeDataContent, tag, decoded]
  | binaryTime msEpoch =>
    obtain ⟨content, encoded, decoded⟩ :=
      decodeBinaryTime_encodeBinaryTimeChecked runtime admissible
    refine ⟨content, by simp only [marshalContent, encoded], fun read => ?_⟩
    simp only [decodeDataContent, tag, decoded]
  | objectIdentifier oid =>
    obtain ⟨content, encoded, decoded⟩ := CodableOid.roundTrip admissible
    refine ⟨content, by simp only [marshalContent, encoded], fun read => ?_⟩
    simp only [decodeDataContent, tag, decoded]
  | accessError errCode =>
    have zero : (0 : Int64).toInt = 0 := rfl
    have accepted : ¬errCode < 0 := by
      rw [Int64.lt_iff_toInt_lt, zero]
      exact Int.not_lt.mpr admissible.1
    refine ⟨encodeUnsignedInt errCode.toUInt64,
      by simp only [marshalContent, accepted, ↓reduceIte], fun read => ?_⟩
    simp only [decodeDataContent, tag, encodeUnsignedInt_toUInt64 admissible.1,
      decodeInteger_encodeInt (inInt32_of_nonneg admissible.1 admissible.2)]

/-! ## Containers -/

/-- The list encoder writes the encodings one after another. -/
theorem marshalDataList_eq {elements : List DataValue}
    (children : ∀ child ∈ elements, ReadsBack runtime levels child) :
    ∃ items : List (DataValue × Octets), items.map Prod.fst = elements ∧
      marshalDataList runtime elements = .ok (items.flatMap Prod.snd) ∧
      ∀ item ∈ items, item.2 ≠ [] ∧ ∀ front rest : Octets,
        unmarshalDataElementWithDepth runtime levels (front ++ item.2 ++ rest) front.length =
          .ok (item.1, item.2.length) := by
  induction elements with
  | nil => exact ⟨[], rfl, by simp only [marshalDataList, List.flatMap_nil], by simp⟩
  | cons head rest ih =>
    obtain ⟨wire, encoded, decoded⟩ := children head List.mem_cons_self
    obtain ⟨items, listed, following, readable⟩ :=
      ih fun child member => children child (List.mem_cons_of_mem _ member)
    obtain ⟨content, contentOk, rfl⟩ : ∃ content, marshalContent runtime head = .ok content ∧
        wire = encodeTLV head.tag content := by
      unfold marshalData at encoded
      split at encoded
      · simp at encoded
      · next content ok => exact ⟨content, ok, by simpa using encoded.symm⟩
    refine ⟨(head, encodeTLV head.tag content) :: items, by rw [List.map_cons, listed], ?_,
      List.forall_mem_cons.mpr ⟨⟨by simp [encodeTLV], decoded⟩, readable⟩⟩
    simp only [marshalDataList, contentOk, following, List.flatMap_cons]

/-- A container of at most `maxAccessResults` readable children has a readable content. -/
theorem accessResults_marshalDataList {elements : List DataValue}
    (children : ∀ child ∈ elements, ReadsBack runtime levels child)
    (count : elements.length ≤ maxAccessResults) :
    ∃ content, marshalDataList runtime elements = .ok content ∧
      accessResults (unmarshalDataElementWithDepth runtime levels) content = .ok elements := by
  obtain ⟨items, rfl, encoded, readable⟩ := marshalDataList_eq children
  refine ⟨_, encoded, ?_⟩
  have loop := offsetLoop_collect Prod.snd Prod.fst
    (accessResult (unmarshalDataElementWithDepth runtime levels)) items
    (fun front rest found item member few => ?_)
  · simp only [accessResults, loop, ne_eq, not_true_eq_false, if_false]
  · obtain ⟨filled, read⟩ := readable item member
    rw [List.length_map] at count
    refine ⟨?_, filled⟩
    simp only [accessResult, read, List.length_append, List.length_singleton]
    rw [if_neg (by omega)]

theorem DataValue.IsContainer.marshalContent_eq (container : value.IsContainer) :
    marshalContent runtime value = marshalDataList runtime value.children := by
  cases value <;> first | exact container.elim | rw [marshalContent, children]

theorem DataValue.IsContainer.children_le (container : value.IsContainer)
    {oidOk : List Int64 → Prop} (admissible : value.Admissible oidOk) :
    value.children.length ≤ maxAccessResults := by
  cases value <;> first | exact container.elim | exact admissible

theorem readsBack_of_limits (admissible : ∀ node ∈ value.nodes, node.Admissible CodableOid)
    (short : ∀ node ∈ value.nodes, node.ShortContent runtime) (shallow : value.depth < levels) :
    ReadsBack runtime levels value := by
  -- on the levels left to the decoder: a child has one level less
  induction levels generalizing value with
  | zero => omega
  | succ levels ih =>
    have own := admissible value (mem_nodes_self value)
    rw [depth_eq_children, Nat.lt_succ_iff, depthBelow_le_iff] at shallow
    have below : ∀ child ∈ value.children, ReadsBack runtime levels child := by
      intro child member
      have inside (node : DataValue) (deep : node ∈ child.nodes) : node ∈ value.nodes := by
        rw [nodes_eq_children]
        exact List.mem_cons_of_mem _ (nodes_subset_nodesBelow member node deep)
      exact ih (fun node deep => admissible node (inside node deep))
        (fun node deep => short node (inside node deep)) (shallow child member)
    by_cases container : value.IsContainer
    · obtain ⟨content, encoded, decoded⟩ :=
        accessResults_marshalDataList below (container.children_le own)
      rw [← container.marshalContent_eq] at encoded
      refine readsBack_of_content encoded (short _ (mem_nodes_self _) _ encoded) ?_
      cases value <;> first
        | exact container.elim
        | simp only [decodeDataContent, tag, decoded, children]
    · obtain ⟨content, encoded, decoded⟩ := leaf_roundTrip own container
      exact readsBack_of_content encoded (short _ (mem_nodes_self _) _ encoded) (decoded _)

theorem unmarshalDataElement_marshalData (runtime : Runtime) (value : DataValue)
    (encodable : value.Encodable runtime ShortArcs) (front rest : Octets) :
    ∃ wire, marshalData runtime value = .ok wire ∧
      unmarshalDataElement runtime (front ++ wire ++ rest) front.length =
        .ok (value, wire.length) := by
  obtain ⟨wire, encoded, decoded⟩ := readsBack_of_limits
    (fun node member => (encodable.node_admissible node member).mono fun _ => ShortArcs.codable)
    encodable.content_lt (Nat.lt_succ_of_le encodable.depth_le)
  exact ⟨wire, encoded, decoded front rest⟩

/-- A structure with one node of most kinds, the array inside it two levels deep. -/
def measurement : DataValue :=
  .struct [.integer (-129), .unsigned 0xff, .bitString [0xff, 0x80] 9,
    .utcTime (.ofUnix 0x65000000 500000000) 0x0a, .objectIdentifier [1, 2, 840],
    .array [.binaryTime 5, .accessError 3, .mmsString [0xc3, 0xa9], .array []]]

theorem measurement_readsBack :
    ∃ wire, marshalData default measurement = .ok wire ∧
      unmarshalDataElement default ([0x30] ++ wire ++ [0x00]) 1 =
        .ok (measurement, wire.length) := by
  refine unmarshalDataElement_marshalData default measurement ⟨?_, by decide +kernel, by decide⟩
    [0x30] [0x00]
  intro node member
  simp only [measurement, nodes, nodesBelow, List.append_nil, List.mem_cons, List.mem_append,
    List.not_mem_nil, or_false] at member
  rcases member with rfl | rfl | rfl | rfl | rfl | rfl | rfl | rfl | rfl | rfl | rfl
  · exact show 6 ≤ maxAccessResults by decide
  · trivial
  · trivial
  · exact .inr ⟨by simp, by decide, by decide⟩
  · exact ⟨[0x65, 0, 0, 0, 0x80, 0, 0, 0], 0, rfl, rfl⟩
  · refine ⟨1, 2, [840], rfl, by decide, by decide, by decide, ?_⟩
    -- One arc at a time: over a finite type the bounded quantifier has a second instance.
    rw [List.forall_mem_cons, List.forall_mem_cons, List.forall_mem_singleton]
    decide
  · exact show 4 ≤ maxAccessResults by decide
  · exact .inl ⟨by decide, by decide⟩
  · exact ⟨by decide, by decide⟩
  · exact show utf8Valid [0xc3, 0xa9] = true by decide
  · exact show 0 ≤ maxAccessResults by decide

end RoundTrip
end GoMms.Pdu
