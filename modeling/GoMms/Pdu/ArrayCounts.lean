import GoMms.Pdu.DecoderBounds

/-!
# The counts of array types

`numberOfElements` of an array type is an Unsigned32, but `DecodeTypeSpec` reads it with the decoder
of signed integers of at most four octets. The decoder below leaves open how the field is read, and
is otherwise the one of the source (`decodeTypeSpecBy_decodeInteger`). If one way to read the field
agrees with another wherever a condition on the counts holds, then so do the two decoders on every
type whose counts meet the condition, at all depths (`decodeTypeSpecBy_transfer`).
-/

namespace GoMms.Pdu

open Octets Berutil TypeSpecWire Tracing

/-! ## Array types by their fields -/

/-- The contents of `numberOfElements` and of `elementType`. -/
def arrayFields (data : Octets) : Except String (Octets × Octets) :=
  match optionalField "array packed: " 0x80 data 0 with
  | .error text => .error text
  | .ok (_, offset) =>
    if offset ≥ data.length then .error "array: missing numberOfElements"
    else
      match requiredField "array numberOfElements: "
        "array numberOfElements: expected [1] (0x81), got 0x" 0x81 data offset with
      | .error text => .error text
      | .ok (number, offset) =>
        if offset ≥ data.length then .error "array: missing elementType"
        else
          match requiredField "array elementType: "
            "array elementType: expected [2] (0xa2), got 0x" 0xa2 data offset with
          | .error text => .error text
          | .ok (content, offset) =>
            if offset ≠ data.length then
              .error ("array: " ++ toString ((data.length : Int) - offset) ++ " trailing bytes")
            else .ok (number, content)

variable {content : Octets} {value : Int64}

theorem arrayParts_ok_iff {data : Octets} {count : Int64} :
    arrayParts data = .ok (count, content) ↔
      ∃ number, arrayFields data = .ok (number, content) ∧ decodeInteger number = .ok count := by
  unfold arrayParts arrayFields
  cases optionalField "array packed: " 0x80 data 0 with
  | error text => simp
  | ok packed =>
    dsimp only
    split_ifs with empty
    · simp
    · cases requiredField "array numberOfElements: "
          "array numberOfElements: expected [1] (0x81), got 0x" 0x81 data packed.2 with
      | error text => simp
      | ok number =>
        dsimp only
        split_ifs with short
        · cases decodeInteger number.1 <;> simp
        · cases requiredField "array elementType: "
              "array elementType: expected [2] (0xa2), got 0x" 0xa2 data number.2 with
          | error text => cases decodeInteger number.1 <;> simp
          | ok element =>
            dsimp only
            split_ifs with trailing
            · cases decodeInteger number.1 <;> simp
            · cases read : decodeInteger number.1 with
              | error text => simp [read]
              | ok value => simp [read, and_comm, eq_comm]

section By

-- how the contents of `numberOfElements` are read
variable (count : Octets → Except String Int64)

def decodeArrayTypeSpecBy (read : Octets → Except String TypeSpecWire) (data : Octets) :
    Except String TypeSpecWire :=
  match arrayFields data with
  | .error text => .error text
  | .ok (number, content) =>
    match count number with
    | .error text => .error ("array numberOfElements value: " ++ text)
    | .ok count =>
      match read content with
      | .error text => .error ("array elementType: " ++ text)
      | .ok elemType => .ok (.array count (some elemType))

def decodeTypeSpecFromTLVBy (read : Octets → Except String TypeSpecWire) (tag : UInt8)
    (content : Octets) : Except String TypeSpecWire :=
  if (tag &&& 0x1f).toNat = 1 ∧ tag &&& 0x20 ≠ 0 then decodeArrayTypeSpecBy count read content
  else decodeTypeSpecFromTLV read tag content

def decodeTypeSpecBy : (levels : Nat) → Octets → Except String TypeSpecWire
  | 0, _ =>
    .error ("pdu: typespec nesting depth " ++ toString (maxTypeSpecNestingDepth + 1) ++
      " exceeds maximum " ++ toString maxTypeSpecNestingDepth)
  | levels + 1, data =>
    match decodeTLV data with
    | .error text => .error ("typespec: " ++ text)
    | .ok (tag, content) => decodeTypeSpecFromTLVBy count (decodeTypeSpecBy levels) tag content

end By

section Fields

variable {count : Octets → Except String Int64} {read : Octets → Except String TypeSpecWire}

variable {data : Octets}

variable {ts : TypeSpecWire}

theorem decodeArrayTypeSpecBy_ok_iff :
    decodeArrayTypeSpecBy count read data = .ok ts ↔
      ∃ number content value element, arrayFields data = .ok (number, content) ∧
        count number = .ok value ∧ read content = .ok element ∧
        ts = .array value (some element) := by
  unfold decodeArrayTypeSpecBy
  cases arrayFields data with
  | error text => simp
  | ok fields =>
    obtain ⟨number, content⟩ := fields
    dsimp only
    cases counted : count number with
    | error text => simp [counted]
    | ok value =>
      dsimp only
      cases element : read content with
      | error text => simp [element]
      | ok elemType => simp [counted, element, eq_comm]

theorem decodeArrayTypeSpec_ok_iff :
    decodeArrayTypeSpec read data = .ok ts ↔
      decodeArrayTypeSpecBy decodeInteger read data = .ok ts := by
  rw [decodeArrayTypeSpecBy_ok_iff, decodeArrayTypeSpec_iff_parts]
  constructor
  · rintro ⟨value, content, element, parts, below, rfl⟩
    obtain ⟨number, fields, counted⟩ := arrayParts_ok_iff.mp parts
    exact ⟨number, content, value, element, fields, counted, below, rfl⟩
  · rintro ⟨number, content, value, element, fields, counted, below, rfl⟩
    exact ⟨value, content, element, arrayParts_ok_iff.mpr ⟨number, fields, counted⟩, below, rfl⟩

/-- The components of a structure are the records of its octets, one by one. -/
theorem decodeStructComponents_iff {components : List (Octets × TypeSpecWire)} :
    decodeStructComponents read data = .ok components ↔
      ∃ records, recordsOf data = .ok records ∧
        List.Forall₂ (fun record component => record.1 = tagSequence ∧
          decodeStructComponent read record.2 = .ok component) records components := by
  unfold decodeStructComponents
  rw [decodeFields_ok_iff]
  refine exists_congr fun records => and_congr_right fun _ => ?_
  have collects : ∀ (found : List (Octets × TypeSpecWire)) (record : UInt8 × Octets) result,
      found.length < records.length →
      (structComponentField read found record.1 record.2 = .ok result ↔
        ∃ parsed, (if record.1 = tagSequence then decodeStructComponent read record.2
          else .error "") = .ok parsed ∧ result = found ++ [parsed]) := by
    intro found record result _
    unfold structComponentField
    by_cases sequence : record.1 = tagSequence
    · rw [if_neg (not_not_intro sequence), if_pos sequence]
      cases decodeStructComponent read record.2 with
      | error text => simp
      | ok component => simp [eq_comm]
    · rw [if_pos sequence, if_neg sequence]
      simp
  rw [foldlM_collect_iff collects (by simp)]
  simp only [List.nil_append, exists_eq_right']
  have same (record : UInt8 × Octets) (component : Octets × TypeSpecWire) :
      (if record.1 = tagSequence then decodeStructComponent read record.2 else .error "") =
        .ok component ↔
      record.1 = tagSequence ∧ decodeStructComponent read record.2 = .ok component := by
    by_cases sequence : record.1 = tagSequence <;> simp [sequence]
  simp only [same]

end Fields

/-! ## Decoders that agree -/

section Transfer

variable {first second : Octets → Except String TypeSpecWire} {agree : TypeSpecWire → Prop}

variable {ts : TypeSpecWire} {tag : UInt8} {content : Octets}

theorem decodeStructureTypeSpec_transfer
    (reads : ∀ content ts, first content = .ok ts → agree ts → second content = .ok ts)
    {data : Octets} (decoded : decodeStructureTypeSpec first data = .ok ts)
    (children : ∀ child ∈ ts.children, agree child) :
    decodeStructureTypeSpec second data = .ok ts := by
  obtain ⟨content, components, parts, found, rfl⟩ := decodeStructureTypeSpec_ok_iff.mp decoded
  refine decodeStructureTypeSpec_ok_iff.mpr ⟨content, components, parts, ?_, rfl⟩
  obtain ⟨records, split, each⟩ := decodeStructComponents_iff.mp found
  rw [List.forall₂_iff_zip] at each
  refine decodeStructComponents_iff.mpr ⟨records, split,
    List.forall₂_iff_zip.mpr ⟨each.1, fun {record component} paired => ?_⟩⟩
  obtain ⟨sequence, parsed⟩ := each.2 paired
  obtain ⟨inner, named, typed⟩ := decodeStructComponent_ok_iff.mp parsed
  have member : component.2 ∈ (TypeSpecWire.struct components).children :=
    List.mem_map_of_mem (List.of_mem_zip paired).2
  exact ⟨sequence, decodeStructComponent_ok_iff.mpr
    ⟨inner, named, reads inner component.2 typed (children component.2 member)⟩⟩

/-- Where the decoders one level down agree, so do the decoders of other types than arrays. -/
theorem decodeTypeSpecFromTLV_transfer
    (reads : ∀ content ts, first content = .ok ts → agree ts → second content = .ok ts)
    (other : ¬((tag &&& 0x1f).toNat = 1 ∧ tag &&& 0x20 ≠ 0))
    (decoded : decodeTypeSpecFromTLV first tag content = .ok ts)
    (children : ∀ child ∈ ts.children, agree child) :
    decodeTypeSpecFromTLV second tag content = .ok ts := by
  unfold decodeTypeSpecFromTLV at decoded ⊢
  dsimp only at decoded ⊢
  split at decoded
  case h_14 array =>
    have primitive : ¬tag &&& 0x20 ≠ 0 := fun constructed => other ⟨array, constructed⟩
    rw [if_neg primitive] at decoded
    cases decoded
  case h_15 =>
    split_ifs at decoded ⊢ with constructed
    exact decodeStructureTypeSpec_transfer reads decoded children
  all_goals exact decoded

variable {read : Octets → Except String TypeSpecWire}

/-- Other tags than that of arrays build no array, and their children are read one level down. -/
theorem decodeTypeSpecFromTLV_other (other : ¬((tag &&& 0x1f).toNat = 1 ∧ tag &&& 0x20 ≠ 0))
    (decoded : decodeTypeSpecFromTLV read tag content = .ok ts) :
    (∀ count element, ts ≠ .array count element) ∧
      ∀ child ∈ ts.children, ∃ inner, read inner = .ok child := by
  unfold decodeTypeSpecFromTLV at decoded
  dsimp only at decoded
  split at decoded
  case h_14 array =>
    rw [if_neg fun constructed => other ⟨array, constructed⟩] at decoded
    cases decoded
  case h_15 =>
    split_ifs at decoded
    obtain ⟨content, components, -, found, rfl⟩ := decodeStructureTypeSpec_ok_iff.mp decoded
    obtain ⟨records, -, each⟩ := decodeStructComponents_iff.mp found
    refine ⟨by rintro _ _ ⟨⟩, fun child known => ?_⟩
    obtain ⟨component, member, rfl⟩ := List.mem_map.mp known
    obtain ⟨record, -, -, parsed⟩ := exists_of_forall₂_right each member
    obtain ⟨inner, -, typed⟩ := decodeStructComponent_ok_iff.mp parsed
    exact ⟨inner, typed⟩
  all_goals
    -- a leaf has no children
    try simp only [decodeSized, decodeFloatTypeSpec] at decoded
    repeat' split at decoded
    all_goals cases decoded
    all_goals exact ⟨by rintro _ _ ⟨⟩, by rintro _ ⟨⟩⟩

theorem bitString_inInt32 {size : Int64}
    (decoded : decodeTypeSpecFromTLV read tag content = .ok (.bitString size)) : InInt32 size := by
  unfold decodeTypeSpecFromTLV at decoded
  dsimp only at decoded
  split at decoded
  case h_2 =>
    simp only [decodeSized] at decoded
    split at decoded
    · cases decoded
    rename_i value read
    cases decoded
    exact inInt32_of_decodeInteger_ok read
  case h_14 =>
    split_ifs at decoded
    obtain ⟨_, _, _, _, _, _, _, arrayOf⟩ :=
      decodeArrayTypeSpecBy_ok_iff.mp (decodeArrayTypeSpec_ok_iff.mp decoded)
    cases arrayOf
  case h_15 =>
    split_ifs at decoded
    obtain ⟨_, _, _, _, structOf⟩ := decodeStructureTypeSpec_ok_iff.mp decoded
    cases structOf
  all_goals
    try simp only [decodeSized, decodeFloatTypeSpec] at decoded
    repeat' split at decoded
    all_goals cases decoded

end Transfer

/-! ## Counts -/

namespace TypeSpecWire

/-- Every array count in the tree meets the condition. -/
def CountsMeet (condition : Int64 → Prop) (ts : TypeSpecWire) : Prop :=
  ∀ depth, ∀ node ∈ ts.nodesAt depth, ∀ count element, node = .array count element → condition count

variable {condition : Int64 → Prop}

theorem countsMeet_iff {ts : TypeSpecWire} :
    ts.CountsMeet condition ↔ (∀ count element, ts = .array count element → condition count) ∧
      ∀ child ∈ ts.children, child.CountsMeet condition :=
  forall_nodesAt_iff

end TypeSpecWire

section Counts

variable {first second : Octets → Except String Int64} {condition : Int64 → Prop}

variable {levels : Nat} {data : Octets} {ts : TypeSpecWire}

/-- Two ways to read the field that agree where the condition holds give decoders that agree on
all types whose counts meet it. -/
theorem decodeTypeSpecBy_transfer
    (agree : ∀ content value, first content = .ok value → condition value →
      second content = .ok value) (decoded : decodeTypeSpecBy first levels data = .ok ts)
    (meets : ts.CountsMeet condition) : decodeTypeSpecBy second levels data = .ok ts := by
  induction levels generalizing data ts with
  | zero => cases decoded
  | succ levels ih =>
    obtain ⟨root, below⟩ := countsMeet_iff.mp meets
    simp only [decodeTypeSpecBy] at decoded ⊢
    cases outer : decodeTLV data with
    | error text =>
      rw [outer] at decoded
      cases decoded
    | ok tlv =>
      obtain ⟨tag, content⟩ := tlv
      rw [outer] at decoded
      simp only [decodeTypeSpecFromTLVBy] at decoded ⊢
      split_ifs at decoded ⊢ with array
      · obtain ⟨number, inner, value, element, fields, counted, typed, rfl⟩ :=
          decodeArrayTypeSpecBy_ok_iff.mp decoded
        refine decodeArrayTypeSpecBy_ok_iff.mpr ⟨number, inner, value, element, fields,
          agree number value counted (root value _ rfl), ih typed (below element ?_), rfl⟩
        exact List.mem_singleton_self element
      · exact decodeTypeSpecFromTLV_transfer (fun _ _ => ih) array decoded below

/-- What holds of every type that is built at any level holds of every node of the tree. -/
theorem forall_nodesAt_of_decode {wellFormed : TypeSpecWire → Prop}
    (built : ∀ {read tag content ts}, decodeTypeSpecFromTLVBy first read tag content = .ok ts →
      wellFormed ts) (decoded : decodeTypeSpecBy first levels data = .ok ts) :
    ∀ depth, ∀ node ∈ ts.nodesAt depth, wellFormed node := by
  induction levels generalizing data ts with
  | zero => cases decoded
  | succ levels ih =>
    simp only [decodeTypeSpecBy] at decoded
    split at decoded
    · cases decoded
    rename_i tag content outer
    have children : ∀ child ∈ ts.children, ∃ inner,
        decodeTypeSpecBy first levels inner = .ok child := by
      simp only [decodeTypeSpecFromTLVBy] at decoded
      split_ifs at decoded with array
      · obtain ⟨number, inner, value, element, fields, counted, typed, rfl⟩ :=
          decodeArrayTypeSpecBy_ok_iff.mp decoded
        exact List.forall_mem_singleton.mpr ⟨inner, typed⟩
      · exact (decodeTypeSpecFromTLV_other array decoded).2
    refine forall_nodesAt_iff.mpr ⟨built decoded, fun child known => ?_⟩
    obtain ⟨inner, typed⟩ := children child known
    exact ih typed

/-- What holds of every count that is read holds of every count in the tree. -/
theorem countsMeet_of_decode (meets : ∀ content value, first content = .ok value → condition value)
    (decoded : decodeTypeSpecBy first levels data = .ok ts) : ts.CountsMeet condition := by
  refine forall_nodesAt_of_decode (fun {read tag content ts} built count element same => ?_) decoded
  subst same
  simp only [decodeTypeSpecFromTLVBy] at built
  split_ifs at built with array
  · obtain ⟨number, _, value, _, _, counted, _, arrayOf⟩ := decodeArrayTypeSpecBy_ok_iff.mp built
    cases arrayOf
    exact meets number count counted
  · exact ((decodeTypeSpecFromTLV_other array built).1 count element rfl).elim

/-- The size of every bit string in the tree is in the int32 range. -/
theorem bitString_inInt32_of_decode (decoded : decodeTypeSpecBy first levels data = .ok ts) :
    ∀ depth, ∀ node ∈ ts.nodesAt depth, ∀ size, node = .bitString size → InInt32 size := by
  refine forall_nodesAt_of_decode (fun {read tag content ts} built size same => ?_) decoded
  subst same
  simp only [decodeTypeSpecFromTLVBy] at built
  split_ifs at built with array
  · obtain ⟨_, _, _, _, _, _, _, arrayOf⟩ := decodeArrayTypeSpecBy_ok_iff.mp built
    cases arrayOf
  · exact bitString_inInt32 built

/-- Reading the field as a signed integer is what the source does. -/
theorem decodeTypeSpecBy_decodeInteger :
    decodeTypeSpecBy decodeInteger levels data = .ok ts ↔
      decodeTypeSpecWithDepth levels data = .ok ts := by
  induction levels generalizing data ts with
  | zero => simp only [decodeTypeSpecBy, decodeTypeSpecWithDepth]
  | succ levels ih =>
    simp only [decodeTypeSpecBy, decodeTypeSpecWithDepth]
    cases decodeTLV data with
    | error text => rfl
    | ok tlv =>
      obtain ⟨tag, content⟩ := tlv
      simp only [decodeTypeSpecFromTLVBy]
      split_ifs with array
      · have plain : decodeTypeSpecFromTLV (decodeTypeSpecWithDepth levels) tag content =
            decodeArrayTypeSpec (decodeTypeSpecWithDepth levels) content := by
          unfold decodeTypeSpecFromTLV
          simp only [array.1, if_pos array.2]
        rw [plain, decodeArrayTypeSpec_ok_iff, decodeArrayTypeSpecBy_ok_iff,
          decodeArrayTypeSpecBy_ok_iff]
        simp only [ih]
      · constructor
        · exact fun decoded => decodeTypeSpecFromTLV_transfer
            (fun _ _ below _ => ih.mp below) array decoded fun _ _ => trivial
        · exact fun decoded => decodeTypeSpecFromTLV_transfer
            (fun _ _ below _ => ih.mpr below) array decoded fun _ _ => trivial

end Counts

/-! ## Unsigned and canonical counts -/

/-- The field read as the Unsigned32 that it is, with the decoder that the package has for it. -/
def unsignedCount (content : Octets) : Except String Int64 :=
  match decodeUnsigned content with
  | .error text => .error text
  | .ok value => .ok (Int64.ofNat value.toNat)

/-- The field read only if it is the canonical encoding of an Unsigned32. -/
def canonicalCount (content : Octets) : Except String Int64 :=
  match decodeUnsigned content with
  | .error text => .error text
  | .ok value =>
    if content = encodeUint32 value then .ok (Int64.ofNat value.toNat)
    else .error "not a canonical Unsigned32"

theorem toInt_ofNat_uint32 (value : UInt32) : (Int64.ofNat value.toNat).toInt = value.toNat := by
  have bound := value.toNat_lt
  exact Int64.toInt_ofNat_of_lt (by omega)

/-- A non-negative signed integer of at most four octets is the same Unsigned32. -/
theorem unsignedCount_of_decodeInteger (decoded : decodeInteger content = .ok value)
    (nonneg : 0 ≤ value.toInt) : unsignedCount content = .ok value := by
  obtain ⟨lead, rest, rfl, short, whole⟩ := decodeInteger_ok decoded
  rw [whole] at nonneg
  have clear := clear_of_twosValue_nonneg nonneg
  have digits : (skipPad (lead :: rest)).length ≤ 4 := by
    unfold skipPad
    split
    · rename_i shape
      cases shape
      simp only [List.length_cons] at short ⊢
      omega
    · simp only [List.length_cons]
      omega
  have read : decodeUnsigned (lead :: rest) = .ok (foldUInt32 0 (skipPad (lead :: rest))) := by
    simp only [decodeUnsigned, clear, Bool.false_eq_true, ↓reduceIte]
    exact if_neg (by omega)
  simp only [unsignedCount, read]
  congr 1
  apply Int64.toInt_inj.mp
  rw [toInt_ofNat_uint32, whole, toNat_of_decodeUnsigned read]

theorem nonneg_of_unsignedCount (decoded : unsignedCount content = .ok value) :
    0 ≤ value.toInt := by
  unfold unsignedCount at decoded
  split at decoded
  · cases decoded
  rename_i number _
  cases decoded
  rw [toInt_ofNat_uint32]
  omega

/-- The canonical encoding of an Unsigned32 below `2 ^ 31` is read as that number. -/
theorem decodeInteger_of_canonicalCount (decoded : canonicalCount content = .ok value)
    (small : value.toInt < 2 ^ 31) : decodeInteger content = .ok value := by
  unfold canonicalCount at decoded
  split at decoded
  · cases decoded
  rename_i number _
  split_ifs at decoded with canonical
  cases decoded
  rw [toInt_ofNat_uint32] at small
  obtain ⟨minimal, same, -⟩ := encodeUint32_spec number
  rw [canonical]
  refine decodeInteger_of_minimal minimal ?_ ?_ ?_
  all_goals rw [toInt_ofNat_uint32]
  · exact same
  · omega
  · omega

end GoMms.Pdu
