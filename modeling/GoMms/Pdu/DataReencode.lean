import GoMms.Pdu.DataRoundTrip

/-!
# What the Data decoder accepts can be encoded again

The decoder takes padded lengths and integers, padded arcs and any boolean octet. Whatever it
accepts is nevertheless within the limits of the encoder, and the encoding of the decoded tree
is not longer than the octets it was read from (`unmarshalDataElementWithDepth_ok`).
-/

namespace GoMms.Pdu

open Octets Berutil DataValue

/-- The nodes that are neither floating point nor generalized time. -/
def DataValue.Plain : DataValue → Prop
  | .float _ _ | .real _ | .generalizedTime _ => False
  | _ => True

/-- The plain nodes that may be written, that is all but access errors. -/
def DataValue.Writable : DataValue → Prop
  | .accessError _ => False
  | value => value.Plain

section Reencode

variable {runtime : Runtime}

/-! ## Lists of encodings -/

theorem marshalDataList_append {front : List DataValue} {last : DataValue} {octets wire : Octets}
    (before : marshalDataList runtime front = .ok octets)
    (encoded : marshalData runtime last = .ok wire) :
    marshalDataList runtime (front ++ [last]) = .ok (octets ++ wire) := by
  induction front generalizing octets with
  | nil =>
    simp only [marshalDataList, Except.ok.injEq] at before
    subst before
    unfold marshalData at encoded
    split at encoded
    · simp at encoded
    rename_i content ok
    simp only [Except.ok.injEq] at encoded
    simp [marshalDataList, ok, encoded]
  | cons head rest ih =>
    simp only [marshalDataList] at before
    split at before
    · simp at before
    rename_i content ok
    split at before
    · simp at before
    rename_i later restOk
    simp only [Except.ok.injEq] at before
    subst before
    simp [marshalDataList, ok, ih restOk]

/-! ## Contents -/

variable {read : Octets → Nat → Except String (DataValue × Nat)} {content : Octets}
  {value : DataValue} {levels offset consumed : Nat}

variable {tag : UInt8} {elements : List DataValue} {data : Octets}

/-- The children of a decoded node were collected by the element loop, or there are none. -/
theorem children_of_decodeDataContent
    (ok : decodeDataContent runtime read tag content = .ok value) :
    value.children = [] ∨ accessResults read content = .ok value.children := by
  unfold decodeDataContent at ok
  split at ok
  case h_16 | h_17 =>
    split at ok
    · cases ok
    rename_i decoded
    cases ok
    exact .inr decoded
  all_goals
    repeat' split at ok
    all_goals cases ok
    all_goals exact .inl rfl

/-- The rule of the element loop: what holds of no elements and is kept by one more holds of all of
them. -/
theorem accessResults_invariant (invariant : List DataValue → Nat → Prop)
    (next : ∀ results offset value consumed, invariant results offset →
      read content offset = .ok (value, consumed) →
      (results ++ [value]).length ≤ maxAccessResults →
      invariant (results ++ [value]) (offset + consumed))
    (ok : accessResults read content = .ok elements) (start : invariant [] 0) :
    invariant elements content.length := by
  unfold accessResults at ok
  split at ok
  · cases ok
  rename_i results offset loop
  split_ifs at ok with whole
  cases ok
  rw [← not_not.mp whole]
  refine offsetLoop_invariant invariant ?_ start loop
  intro results offset step kept below pass
  unfold accessResult at pass
  split at pass
  · cases pass
  rename_i value consumed found
  dsimp only at pass
  split_ifs at pass with many
  cases pass
  exact next results offset value consumed kept found (Nat.not_lt.mp many)

/-- An element is one record, whose content is decoded one level down. -/
theorem unmarshalDataElementWithDepth_succ_ok
    (ok : unmarshalDataElementWithDepth runtime (levels + 1) data offset = .ok (value, consumed)) :
    ∃ tlv, decodeTLVAt data offset = .ok tlv ∧
      decodeDataContent runtime (unmarshalDataElementWithDepth runtime levels) tlv.tag
        tlv.content = .ok value ∧ consumed = tlv.consumed := by
  rw [unmarshalDataElementWithDepth] at ok
  split at ok
  · cases ok
  rename_i tlv record
  split at ok
  · cases ok
  rename_i decoded contentOk
  cases ok
  exact ⟨tlv, record, contentOk, rfl⟩

/-- An accepted content belongs to an admissible node that encodes into no more octets, given
the same of the children of a container. -/
theorem decodeDataContent_ok (fits : content.length < maxContent)
    (ok : decodeDataContent runtime read tag content = .ok value) (writable : value.Writable)
    (count : value.children.length ≤ maxAccessResults)
    (children : ∃ again, marshalDataList runtime value.children = .ok again ∧
      again.length ≤ content.length) :
    value.Admissible CodableOid ∧ ∃ again, marshalContent runtime value = .ok again ∧
      again.length ≤ content.length := by
  unfold decodeDataContent at ok
  split at ok
  -- the cases are those of the source's switch, in its order
  case h_1 =>
    split at ok
    · rename_i octet
      cases ok
      exact ⟨trivial, [if octet != 0 then 0xff else 0x00], by simp only [marshalContent], by simp⟩
    · cases ok
  -- integer and bcd
  case h_2 | h_14 =>
    split at ok
    · cases ok
    rename_i decoded
    cases ok
    exact ⟨trivial, _, by simp only [marshalContent], length_encodeSignedInt_le decoded⟩
  case h_3 =>
    split at ok
    · cases ok
    rename_i decoded
    cases ok
    exact ⟨trivial, _, by simp only [marshalContent], length_encodeUnsignedInt_le decoded⟩
  -- float, real and generalized time
  case h_4 | h_6 | h_13 =>
    split at ok
    · cases ok
    · cases ok
      exact writable.elim
  -- bit string and boolean array
  case h_5 | h_15 =>
    split at ok
    · cases ok
    rename_i decoded
    cases ok
    obtain ⟨whole, length⟩ := decodeBitString_ok fits decoded
    exact ⟨whole, _, by simp only [marshalContent], length.le⟩
  -- octet and visible string
  case h_7 | h_8 =>
    cases ok
    exact ⟨trivial, _, by simp only [marshalContent], Nat.le_refl _⟩
  case h_9 =>
    split at ok
    · rename_i valid
      cases ok
      exact ⟨valid, content, by simp only [marshalContent, valid, ↓reduceIte], Nat.le_refl _⟩
    · cases ok
  case h_10 =>
    split at ok
    · cases ok
    rename_i time quality decoded
    cases ok
    have eight : content.length = 8 := by
      unfold decodeUTCTime at decoded
      split at decoded
      · rfl
      · cases decoded
    obtain ⟨again, encoded, length, _⟩ := encodeUTCTime_decodeUTCTime runtime decoded quality
    exact ⟨⟨content, quality, eight, decoded⟩, again, by simp only [marshalContent, encoded],
      by omega⟩
  case h_11 =>
    split at ok
    · cases ok
    rename_i decoded
    cases ok
    obtain ⟨range, again, encoded, length⟩ := decodeBinaryTime_ok runtime decoded
    exact ⟨range, again, by simp only [marshalContent, encoded], length⟩
  case h_12 =>
    split at ok
    · cases ok
    rename_i decoded
    cases ok
    obtain ⟨codable, again, encoded, length⟩ := decodeObjectIdentifier_ok decoded
    exact ⟨codable, again, by simp only [marshalContent, encoded], length⟩
  -- array and structure
  case h_16 | h_17 =>
    split at ok
    · cases ok
    cases ok
    obtain ⟨again, encoded, length⟩ := children
    exact ⟨count, again, by simpa only [marshalContent, DataValue.children] using encoded, length⟩
  case h_18 =>
    split at ok
    · cases ok
    · cases ok
      exact writable.elim
  case h_19 => cases ok

/-! ## Elements -/

/-- A decoded value within the limits of the encoder, whose encoding takes no more than
`consumed` octets. -/
structure Reencodable (runtime : Runtime) (levels : Nat) (value : DataValue) (consumed : Nat) :
    Prop where
  depth_lt : value.depth < levels
  node_admissible : ∀ node ∈ value.nodes, node.Admissible CodableOid
  content_lt : ∀ node ∈ value.nodes, node.ShortContent runtime
  exists_wire : ∃ wire, marshalData runtime value = .ok wire ∧ wire.length ≤ consumed

/-- What the element loop has collected: as many children as the limit allows, each of them
within the limits when its nodes are writable. -/
private structure Collected (runtime : Runtime) (levels : Nat) (results : List DataValue)
    (offset : Nat) : Prop where
  count_le : results.length ≤ maxAccessResults
  child_ok : ∀ child ∈ results, (∀ node ∈ child.nodes, node.Writable) →
    ∃ consumed, Reencodable runtime levels child consumed
  encoded_le : (∀ child ∈ results, ∀ node ∈ child.nodes, node.Writable) →
    ∃ octets, marshalDataList runtime results = .ok octets ∧ octets.length ≤ offset

private theorem collected_nil (size : Nat) : Collected runtime levels [] size :=
  ⟨Nat.zero_le _, by simp, fun _ => ⟨[], by simp only [marshalDataList], Nat.zero_le _⟩⟩

private theorem Collected.snoc {results : List DataValue} {child : DataValue}
    (collected : Collected runtime levels results offset)
    (count : (results ++ [child]).length ≤ maxAccessResults)
    (next : (∀ node ∈ child.nodes, node.Writable) → Reencodable runtime levels child consumed) :
    Collected runtime levels (results ++ [child]) (offset + consumed) where
  count_le := count
  child_ok := by
    intro other member writable
    rcases List.mem_append.mp member with earlier | here
    · exact collected.child_ok other earlier writable
    · rw [List.mem_singleton.mp here] at writable ⊢
      exact ⟨consumed, next writable⟩
  encoded_le := by
    intro writable
    obtain ⟨octets, before, bound⟩ := collected.encoded_le fun other member =>
      writable other (List.mem_append_left _ member)
    obtain ⟨wire, encoded, length⟩ := (next (writable child (by simp))).exists_wire
    refine ⟨octets ++ wire, marshalDataList_append before encoded, ?_⟩
    rw [List.length_append]
    omega

private theorem collected_of_accessResults
    (element : ∀ {data : Octets} {offset : Nat} {value : DataValue} {consumed : Nat},
      unmarshalDataElementWithDepth runtime levels data offset = .ok (value, consumed) →
      (∀ node ∈ value.nodes, node.Writable) → Reencodable runtime levels value consumed)
    (ok : accessResults (unmarshalDataElementWithDepth runtime levels) content = .ok elements) :
    Collected runtime levels elements content.length := by
  refine accessResults_invariant (Collected runtime levels) ?_ ok ?_
  · intro results offset child consumed collected read count
    exact collected.snoc count (element read)
  · exact collected_nil 0

/-- The limits hold in a tree when they hold at its root and in every child. -/
private theorem reencodable_of_root (admissible : value.Admissible CodableOid)
    (short : value.ShortContent runtime)
    (wire : ∃ wire, marshalData runtime value = .ok wire ∧ wire.length ≤ consumed)
    (children : ∀ child ∈ value.children, ∃ size, Reencodable runtime levels child size) :
    Reencodable runtime (levels + 1) value consumed := by
  have nodes : ∀ node ∈ value.nodes, node.Admissible CodableOid ∧ node.ShortContent runtime := by
    rw [nodes_eq_children]
    refine List.forall_mem_cons.mpr ⟨⟨admissible, short⟩, fun node deeper => ?_⟩
    obtain ⟨child, inside, below⟩ := exists_child_of_mem_nodesBelow deeper
    obtain ⟨_, limits⟩ := children child inside
    exact ⟨limits.node_admissible node below, limits.content_lt node below⟩
  refine ⟨?_, fun node member => (nodes node member).1, fun node member => (nodes node member).2,
    wire⟩
  rw [depth_eq_children, Nat.lt_succ_iff, depthBelow_le_iff]
  intro child member
  obtain ⟨_, limits⟩ := children child member
  exact limits.depth_lt

/-- Whatever the decoder accepts, apart from the platform's leaves and access errors, is
within the limits of the encoder and does not grow when it is encoded again. -/
theorem unmarshalDataElementWithDepth_ok
    (ok : unmarshalDataElementWithDepth runtime levels data offset = .ok (value, consumed))
    (writable : ∀ node ∈ value.nodes, node.Writable) :
    Reencodable runtime levels value consumed := by
  induction levels generalizing data offset value consumed with
  | zero => simp [unmarshalDataElementWithDepth] at ok
  | succ levels ih =>
    obtain ⟨tlv, record, contentOk, rfl⟩ := unmarshalDataElementWithDepth_succ_ok ok
    obtain ⟨_, fits, header, _⟩ := decodeTLVAt_ok record
    rw [nodes_eq_children, List.forall_mem_cons] at writable
    have below : ∀ child ∈ value.children, ∀ node ∈ child.nodes, node.Writable :=
      fun child member node inside =>
        writable.2 node (nodes_subset_nodesBelow member node inside)
    have collected : Collected runtime levels value.children tlv.content.length := by
      rcases children_of_decodeDataContent contentOk with none | decoded
      · rw [none]
        exact collected_nil _
      · exact collected_of_accessResults ih decoded
    obtain ⟨admissible, again, encoded, length⟩ := decodeDataContent_ok fits contentOk
      writable.1 collected.count_le (collected.encoded_le below)
    have short : value.ShortContent runtime := by
      intro content same
      rw [encoded] at same
      cases same
      omega
    have wire : ∃ wire, marshalData runtime value = .ok wire ∧ wire.length ≤ tlv.consumed := by
      refine ⟨encodeTLV value.tag again, by simp only [marshalData, encoded], ?_⟩
      rw [length_encodeTLV]
      exact (tlvSize_mono length).trans header
    exact reencodable_of_root admissible short wire fun child member =>
      collected.child_ok child member (below child member)

end Reencode
end GoMms.Pdu
