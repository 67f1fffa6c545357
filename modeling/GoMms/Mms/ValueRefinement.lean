import GoMms.Mms.ValueMemory

/-!
# Comparing and converting values in memory

On memory, `Equal` is symmetric and transitive whatever the pointers lead to. On trees it computes
the equality of the values that the pointers represent (`equalAt_eq`), and `valueToDataValue`
converts these values (`dataValueAt_eq`).
-/

namespace GoMms.Mms

open Berutil Pdu
open MemoryObject (asValue asBytes asInts asPointers)

/-! ## An equivalence -/

section Equivalence

variable {memory : ValueMemory} {equal : ValuePointer → ValuePointer → Option Bool}

theorem floatsEqual_comm (first second : UInt64) :
    floatsEqual first second = floatsEqual second first := by
  unfold floatsEqual
  rw [Bool.or_comm, Bool.and_comm, BEq.comm]

theorem floatsEqual_trans {first second third : UInt64} (one : floatsEqual first second = true)
    (two : floatsEqual second third = true) : floatsEqual first third = true := by
  unfold floatsEqual at *
  cases firstNaN : isNaN first <;> cases secondNaN : isNaN second <;>
    cases thirdNaN : isNaN third <;> simp_all

section Slices

variable {α : Type} [BEq α] [LawfulBEq α] {view : MemoryObject → Option (List α)}

theorem equalSlices_comm (first second : Option ArrayWindow) :
    equalSlices view memory first second = equalSlices view memory second first := by
  unfold equalSlices
  cases sliceAt view memory first with
  | none => cases sliceAt view memory second <;> rfl
  | some firsts =>
    cases sliceAt view memory second with
    | none => rfl
    | some seconds => exact congrArg some BEq.comm

variable {first second : Option ArrayWindow}

theorem equalSlices_true_iff :
    equalSlices view memory first second = some true ↔
      ∃ content, sliceAt view memory first = some content ∧
        sliceAt view memory second = some content := by
  unfold equalSlices
  cases sliceAt view memory first with
  | none => simp
  | some firsts =>
    cases sliceAt view memory second with
    | none => simp
    | some seconds =>
      simp only [Option.some.injEq, beq_iff_eq]
      exact ⟨fun same => ⟨firsts, rfl, same.symm⟩, fun ⟨content, one, two⟩ => one.trans two.symm⟩

theorem equalSlices_trans {third : Option ArrayWindow}
    (one : equalSlices view memory first second = some true)
    (two : equalSlices view memory second third = some true) :
    equalSlices view memory first third = some true := by
  obtain ⟨content, start, middle⟩ := equalSlices_true_iff.mp one
  obtain ⟨again, middle', last⟩ := equalSlices_true_iff.mp two
  obtain rfl := Option.some.inj (middle.symm.trans middle')
  exact equalSlices_true_iff.mpr ⟨content, start, last⟩

end Slices

theorem ite_some_false_iff {condition : Prop} [Decidable condition] {answer : Option Bool} :
    (if condition then answer else some false) = some true ↔ condition ∧ answer = some true := by
  split_ifs with holds
  · exact (and_iff_right holds).symm
  · simp [holds]

theorem equalPointers_comm (comm : ∀ first second, equal first second = equal second first)
    (firsts seconds : List ValuePointer) :
    equalPointers equal firsts seconds = equalPointers equal seconds firsts := by
  induction firsts generalizing seconds with
  | nil => cases seconds <;> rfl
  | cons first firsts ih =>
    cases seconds with
    | nil => rfl
    | cons second seconds => rw [equalPointers, equalPointers, comm first second, ih seconds]

theorem equalPointers_true_iff {firsts seconds : List ValuePointer}
    (lengths : firsts.length = seconds.length) :
    equalPointers equal firsts seconds = some true ↔
      List.Forall₂ (fun first second => equal first second = some true) firsts seconds := by
  induction firsts generalizing seconds with
  | nil =>
    obtain rfl := List.length_eq_zero_iff.mp lengths.symm
    exact iff_of_true rfl .nil
  | cons first firsts ih =>
    cases seconds with
    | nil => cases lengths
    | cons second seconds =>
      rw [List.forall₂_cons, ← ih (Nat.succ.inj lengths), equalPointers]
      cases equal first second with
      | none => simp
      | some answer => cases answer <;> simp

theorem forall₂_trans {α : Type} {R : α → α → Prop}
    (trans : ∀ first second third, R first second → R second third → R first third)
    {firsts seconds thirds : List α} (one : List.Forall₂ R firsts seconds)
    (two : List.Forall₂ R seconds thirds) : List.Forall₂ R firsts thirds := by
  induction one generalizing thirds with
  | nil => exact two
  | cons here _ ih =>
    cases two with
    | cons there later => exact .cons (trans _ _ _ here there) (ih later)

theorem equalElementSlices_comm (comm : ∀ first second, equal first second = equal second first)
    (first second : Option ArrayWindow) :
    equalElementSlices memory equal first second =
      equalElementSlices memory equal second first := by
  unfold equalElementSlices
  cases sliceAt asPointers memory first with
  | none => cases sliceAt asPointers memory second <;> rfl
  | some firsts =>
    cases sliceAt asPointers memory second with
    | none => rfl
    | some seconds => exact if_congr eq_comm (equalPointers_comm comm firsts seconds) rfl

theorem equalElementSlices_true_iff {first second : Option ArrayWindow} :
    equalElementSlices memory equal first second = some true ↔
      ∃ firsts seconds, sliceAt asPointers memory first = some firsts ∧
        sliceAt asPointers memory second = some seconds ∧
        List.Forall₂ (fun first second => equal first second = some true) firsts seconds := by
  unfold equalElementSlices
  cases sliceAt asPointers memory first with
  | none => simp
  | some firsts =>
    cases sliceAt asPointers memory second with
    | none => simp
    | some seconds =>
      dsimp only
      rw [ite_some_false_iff]
      constructor
      · rintro ⟨lengths, same⟩
        exact ⟨firsts, seconds, rfl, rfl, (equalPointers_true_iff lengths).mp same⟩
      · rintro ⟨_, _, ⟨⟩, ⟨⟩, each⟩
        exact ⟨each.length_eq, (equalPointers_true_iff each.length_eq).mpr each⟩

variable {v other : ValueStruct}

theorem equalFields_comm (comm : ∀ first second, equal first second = equal second first)
    (same : v.typ = other.typ) :
    equalFields memory equal v other = equalFields memory equal other v := by
  unfold equalFields
  rw [← same]
  cases v.typ
  case bitString | booleanArray => exact if_congr eq_comm (equalSlices_comm _ _) rfl
  case octetString | objectIdentifier => exact equalSlices_comm _ _
  case struct | array => exact equalElementSlices_comm comm _ _
  case float | real => exact congrArg some (floatsEqual_comm _ _)
  case utcTime => exact congrArg some (congrArg₂ and BEq.comm BEq.comm)
  case namedType => rfl
  all_goals exact congrArg some BEq.comm

theorem equalFields_trans (trans : ∀ first second third, equal first second = some true →
      equal second third = some true → equal first third = some true) {third : ValueStruct}
    (same : v.typ = other.typ) (one : equalFields memory equal v other = some true)
    (two : equalFields memory equal other third = some true) :
    equalFields memory equal v third = some true := by
  unfold equalFields at *
  rw [← same] at two
  cases typ : v.typ
  all_goals simp only [typ] at one two ⊢
  case bitString | booleanArray =>
    rw [ite_some_false_iff] at one two ⊢
    exact ⟨one.1.trans two.1, equalSlices_trans one.2 two.2⟩
  case octetString | objectIdentifier => exact equalSlices_trans one two
  case struct | array =>
    obtain ⟨firsts, seconds, start, middle, each⟩ := equalElementSlices_true_iff.mp one
    obtain ⟨again, thirds, middle', last, others⟩ := equalElementSlices_true_iff.mp two
    obtain rfl := Option.some.inj (middle.symm.trans middle')
    exact equalElementSlices_true_iff.mpr
      ⟨firsts, thirds, start, last, forall₂_trans trans each others⟩
  case float | real =>
    rw [Option.some.injEq] at one two ⊢
    exact floatsEqual_trans one two
  case utcTime =>
    simp only [Time.equal, Option.some.injEq, Bool.and_eq_true, beq_iff_eq] at one two ⊢
    exact ⟨one.1.trans two.1, one.2.trans two.2⟩
  case generalizedTime =>
    simp only [Time.equal, Option.some.injEq, beq_iff_eq] at one two ⊢
    exact one.trans two
  case namedType => cases one
  all_goals
    rw [Option.some.injEq, beq_iff_eq] at one two ⊢
    exact one.trans two

/-- `Equal` is symmetric, whatever the pointers lead to. -/
theorem equalAt_comm (memory : ValueMemory) (levels : Nat) (first second : ValuePointer) :
    equalAt memory levels first second = equalAt memory levels second first := by
  induction levels generalizing first second with
  | zero => cases first <;> cases second <;> rfl
  | succ levels ih =>
    cases first with
    | none => cases second <;> rfl
    | some first =>
      cases second with
      | none => rfl
      | some second =>
        rw [equalAt, equalAt]
        cases structAt memory first with
        | none => cases structAt memory second <;> rfl
        | some v =>
          cases structAt memory second with
          | none => rfl
          | some other =>
            dsimp only
            by_cases same : v.typ = other.typ
            · rw [if_pos same, if_pos same.symm, equalFields_comm ih same]
            · rw [if_neg same, if_neg (Ne.symm same)]

/-- `Equal` is transitive, whatever the pointers lead to. -/
theorem equalAt_trans (memory : ValueMemory) (levels : Nat) (first second third : ValuePointer)
    (one : equalAt memory levels first second = some true)
    (two : equalAt memory levels second third = some true) :
    equalAt memory levels first third = some true := by
  induction levels generalizing first second third with
  | zero =>
    cases first with
    | none => cases second with
      | none => exact two
      | some second => cases one
    | some first => cases second <;> cases one
  | succ levels ih =>
    cases first with
    | none => cases second with
      | none => exact two
      | some second => cases one
    | some first => cases second with
      | none => cases one
      | some second => cases third with
        | none => cases two
        | some third =>
          rw [equalAt] at one two ⊢
          cases here : structAt memory first with
          | none => simp only [here] at one; cases one
          | some v => cases there : structAt memory second with
            | none => simp only [here, there] at one; cases one
            | some other => cases last : structAt memory third with
              | none => simp only [there, last] at two; cases two
              | some final =>
                simp only [here, there, last, ite_some_false_iff] at one two ⊢
                exact ⟨one.1.trans two.1, equalFields_trans ih one.1 one.2 two.2⟩

end Equivalence

/-! ## What is compared and converted -/

section Refinement

variable {memory : ValueMemory} {low : Nat} {value : Value} {pointer : ValuePointer}

theorem Value.IsLeaf.ne_nil (leaf : value.IsLeaf) : value ≠ .nil := by
  rintro rfl
  exact leaf

variable {second : Value} {v : ValueStruct} {equal : ValuePointer → ValuePointer → Option Bool}

variable {first : Value} {other : ValueStruct} {firsts seconds : List Value}
  {pointers others : List ValuePointer} {kind : Composite} {levels : Nat}

/-- Equal values have the same type. -/
theorem Value.type_eq_of_equal (same : first.equal second = true) : first.type = second.type := by
  cases first <;> cases second <;> first | rfl | cases same

theorem leafOf_type (read : leafOf memory v = some value) : value.type = some v.typ := by
  unfold leafOf at read
  split at read
  all_goals first
    | cases read
    | obtain ⟨content, -, rfl⟩ := Option.map_eq_some_iff.mp read
  all_goals exact congrArg some (by assumption : v.typ = _).symm

/-- A value other than nil is represented by a struct of its type, with pointers to its
elements. -/
theorem PointsTo.struct (points : PointsTo memory low value pointer) (present : value ≠ .nil) :
    ∃ address v pointers, pointer = some address ∧ StructFrom memory low address v pointers ∧
      value.type = some v.typ ∧ List.Forall₂ (PointsTo memory low) value.elements pointers ∧
      (value.IsLeaf → leafOf memory v = some value) := by
  cases value using Value.induction_elements with
  | nil => exact (present rfl).elim
  | leaf value leaf =>
    obtain ⟨address, v, same, here, read⟩ := (pointsTo_leaf_iff leaf).mp points
    have none : value.elements = [] := by
      cases value with
      | array elements => exact leaf.elim
      | struct elements => exact leaf.elim
      | _ => rfl
    exact ⟨address, v, [], same, here, leafOf_type read, none ▸ .nil, fun _ => read⟩
  | composite kind elements =>
    obtain ⟨address, v, pointers, same, here, typ, below⟩ := pointsTo_composite_iff.mp points
    refine ⟨address, v, pointers, same, here, ?_⟩
    cases kind <;> exact ⟨congrArg some typ.symm, below, fun leaf => leaf.elim⟩

theorem equalFields_leaf (read : leafOf memory v = some first)
    (readOther : leafOf memory other = some second) (same : v.typ = other.typ) :
    equalFields memory equal v other = some (first.equal second) := by
  unfold leafOf at read readOther
  unfold equalFields
  rw [← same] at readOther
  cases typ : v.typ
  all_goals simp only [typ] at read readOther ⊢
  case bitString | booleanArray =>
    obtain ⟨bits, bitsRead, rfl⟩ := Option.map_eq_some_iff.mp read
    obtain ⟨others, othersRead, rfl⟩ := Option.map_eq_some_iff.mp readOther
    rw [equalSlices, bitsRead, othersRead, Value.equal]
    by_cases lengths : v.bitLen = other.bitLen <;> simp [lengths]
  case octetString | objectIdentifier =>
    obtain ⟨content, contentRead, rfl⟩ := Option.map_eq_some_iff.mp read
    obtain ⟨others, othersRead, rfl⟩ := Option.map_eq_some_iff.mp readOther
    rw [equalSlices, contentRead, othersRead, Value.equal]
  case array | struct | namedType => cases read
  all_goals
    cases read
    cases readOther
    rfl

/-- Element by element, the pointers are compared as the elements are. -/
theorem equalPointers_eq (one : List.Forall₂ (PointsTo memory low) firsts pointers)
    (two : List.Forall₂ (PointsTo memory low) seconds others)
    (each : ∀ first ∈ firsts, ∀ second pointer other, PointsTo memory low first pointer →
      PointsTo memory low second other → equal pointer other = some (first.equal second))
    (lengths : firsts.length = seconds.length) :
    equalPointers equal pointers others = some (equalElements firsts seconds) := by
  induction one generalizing seconds others with
  | nil =>
    obtain rfl := List.length_eq_zero_iff.mp lengths.symm
    cases two
    rfl
  | @cons first pointer firsts pointers here _ ih =>
    cases two with
    | nil => cases lengths
    | @cons second other seconds others there later =>
      rw [equalPointers, equalElements,
        each first List.mem_cons_self second pointer other here there]
      cases first.equal second with
      | false => rfl
      | true =>
        exact ih later (fun element known => each element (List.mem_cons_of_mem _ known))
          (Nat.succ.inj lengths)

theorem equalElementSlices_eq {slice otherSlice : Option ArrayWindow}
    (read : sliceAt asPointers memory slice = some pointers)
    (readOther : sliceAt asPointers memory otherSlice = some others)
    (one : List.Forall₂ (PointsTo memory low) firsts pointers)
    (two : List.Forall₂ (PointsTo memory low) seconds others)
    (each : ∀ first ∈ firsts, ∀ second pointer other, PointsTo memory low first pointer →
      PointsTo memory low second other → equal pointer other = some (first.equal second)) :
    equalElementSlices memory equal slice otherSlice = some (equalElements firsts seconds) := by
  rw [equalElementSlices, read, readOther]
  dsimp only
  rw [← one.length_eq, ← two.length_eq]
  split_ifs with lengths
  · exact equalPointers_eq one two each lengths
  · rw [Option.some.injEq, eq_comm, Bool.eq_false_iff]
    exact fun same => lengths (equalElements_iff.mp same).length_eq

theorem levels_le_below {elements : List Value} {element : Value} (known : element ∈ elements) :
    element.levels ≤ levelsBelow elements := by
  induction elements with
  | nil => cases known
  | cons first rest ih =>
    rw [levelsBelow]
    rcases List.mem_cons.mp known with rfl | later
    · exact le_max_left _ _
    · exact (ih later).trans (le_max_right _ _)

theorem levels_composite (kind : Composite) (elements : List Value) :
    (kind.value elements).levels = levelsBelow elements + 1 := by
  cases kind <;> rw [Composite.value, Value.levels]

theorem elements_composite (kind : Composite) (elements : List Value) :
    (kind.value elements).elements = elements := by
  cases kind <;> rfl

theorem type_composite (kind : Composite) (elements : List Value) :
    (kind.value elements).type = some kind.type := by
  cases kind <;> rfl

theorem equalFields_composite (typ : v.typ = kind.type) :
    equalFields memory equal v other =
      equalElementSlices memory equal v.elementsVal other.elementsVal := by
  cases kind <;> rw [equalFields, typ] <;> rfl

theorem levels_pos (present : value ≠ .nil) : 0 < value.levels := by
  cases value with
  | nil => exact (present rfl).elim
  | _ => exact Nat.succ_pos _

theorem isLeaf_iff_type (value : Value) :
    value.IsLeaf ↔ value.type ≠ none ∧ value.type ≠ some .array ∧ value.type ≠ some .struct := by
  cases value <;> simp [Value.IsLeaf, Value.type]

theorem eq_composite_of_type (typ : value.type = some kind.type) :
    ∃ elements, value = kind.value elements := by
  cases kind <;> cases value <;> first | exact ⟨_, rfl⟩ | cases typ

/-- What a pointer to a struct leads to. -/
structure Shows (memory : ValueMemory) (low : Nat) (value : Value) (v : ValueStruct)
    (pointers : List ValuePointer) : Prop where
  typ : value.type = some v.typ
  slice : sliceAt asPointers memory v.elementsVal = some pointers
  elements : List.Forall₂ (PointsTo memory low) value.elements pointers
  leaf : value.IsLeaf → leafOf memory v = some value

theorem equalAt_succ {other : ValuePointer} (points : PointsTo memory low value pointer)
    (present : value ≠ .nil) (pointsOther : PointsTo memory low second other)
    (fields : ∀ v w pointers others, Shows memory low value v pointers →
      Shows memory low second w others → v.typ = w.typ →
      equalFields memory (equalAt memory levels) v w = some (value.equal second)) :
    equalAt memory (levels + 1) pointer other = some (value.equal second) := by
  obtain ⟨address, v, pointers, rfl, here, typ, below, leaf⟩ := points.struct present
  by_cases absent : second = .nil
  · subst absent
    obtain rfl : other = none := pointsOther
    rw [equalAt, Option.some.injEq]
    cases value with
    | nil => exact (present rfl).elim
    | _ => rfl
  · obtain ⟨place, w, others, rfl, there, typOther, belowOther, leafOther⟩ :=
      pointsOther.struct absent
    rw [equalAt, here.found, there.found]
    dsimp only
    split_ifs with same
    · exact fields v w pointers others ⟨typ, here.elements.1, below, leaf⟩
        ⟨typOther, there.elements.1, belowOther, leafOther⟩ same
    · rw [Option.some.injEq, eq_comm, Bool.eq_false_iff]
      intro equals
      have types := Value.type_eq_of_equal equals
      rw [typ, typOther, Option.some.injEq] at types
      exact same types

/-- `Equal` on pointers is the equality of the values that they represent. -/
theorem equalAt_eq {other : ValuePointer} (points : PointsTo memory low value pointer)
    (pointsOther : PointsTo memory low second other) (enough : value.levels ≤ levels) :
    equalAt memory levels pointer other = some (value.equal second) := by
  induction value using Value.induction_elements generalizing second pointer other levels with
  | nil =>
    obtain rfl : pointer = none := points
    have answer : equalAt memory levels none other = some other.isNone := by
      cases levels <;> rfl
    rw [answer, Option.some.injEq]
    by_cases absent : second = .nil
    · subst absent
      obtain rfl : other = none := pointsOther
      rfl
    · obtain ⟨place, w, others, rfl, -⟩ := pointsOther.struct absent
      cases second with
      | nil => exact (absent rfl).elim
      | _ => rfl
  | leaf value leaf =>
    obtain ⟨levels, rfl⟩ := Nat.exists_eq_add_one.mpr ((levels_pos leaf.ne_nil).trans_le enough)
    refine equalAt_succ points leaf.ne_nil pointsOther
      fun v w pointers others seen seenOther same => ?_
    have leafOther : second.IsLeaf := by
      rw [isLeaf_iff_type] at leaf ⊢
      rwa [seenOther.typ, ← same, ← seen.typ]
    exact equalFields_leaf (seen.leaf leaf) (seenOther.leaf leafOther) same
  | composite kind elements ih =>
    rw [levels_composite] at enough
    obtain ⟨levels, rfl⟩ := Nat.exists_eq_add_one.mpr ((Nat.succ_pos _).trans_le enough)
    refine equalAt_succ points (by cases kind <;> rintro ⟨⟩) pointsOther
      fun v w pointers others seen seenOther same => ?_
    have typ : v.typ = kind.type :=
      Option.some.inj (seen.typ.symm.trans (type_composite kind elements))
    obtain ⟨seconds, rfl⟩ := eq_composite_of_type (seenOther.typ.trans (by rw [← same, typ]))
    rw [equalFields_composite typ, Value.equal_composite]
    have one := elements_composite kind elements ▸ seen.elements
    have two := elements_composite kind seconds ▸ seenOther.elements
    refine equalElementSlices_eq seen.slice seenOther.slice one two
      fun first known second pointer other one two => ?_
    exact ih first known one two ((levels_le_below known).trans (Nat.le_of_succ_le_succ enough))

/-! Conversion follows the same tree. -/

section Conversion

variable (runtime : Runtime)

variable {convert : ValuePointer → Option (Except String DataValue)}

theorem fieldsToDataValue_leaf (read : leafOf memory v = some value) :
    fieldsToDataValue runtime memory convert v = some (valueToDataValue runtime value) := by
  unfold leafOf at read
  unfold fieldsToDataValue
  cases typ : v.typ
  all_goals simp only [typ] at read ⊢
  case bitString | booleanArray | octetString | objectIdentifier =>
    obtain ⟨content, contentRead, rfl⟩ := Option.map_eq_some_iff.mp read
    rw [contentRead, Option.map_some, valueToDataValue]
  case array | struct | namedType => cases read
  all_goals
    cases read
    rfl

theorem pointersToDataValues_eq {elements : List Value}
    (points : List.Forall₂ (PointsTo memory low) elements pointers)
    (each : ∀ element ∈ elements, ∀ pointer, PointsTo memory low element pointer →
      convert pointer = some (valueToDataValue runtime element)) (index : Nat) :
    pointersToDataValues convert index pointers =
      some (valuesToDataValues runtime index elements) := by
  induction points generalizing index with
  | nil => rfl
  | @cons element pointer elements pointers here _ ih =>
    rw [pointersToDataValues, valuesToDataValues, each element List.mem_cons_self pointer here]
    cases valueToDataValue runtime element with
    | error text => rfl
    | ok converted =>
      dsimp only
      rw [ih (fun other known => each other (List.mem_cons_of_mem _ known))]
      cases valuesToDataValues runtime (index + 1) elements <;> rfl

/-- `valueToDataValue` on a pointer converts the value that it represents. -/
theorem dataValueAt_eq (points : PointsTo memory low value pointer)
    (enough : value.levels ≤ levels) :
    dataValueAt runtime memory levels pointer = some (valueToDataValue runtime value) := by
  induction value using Value.induction_elements generalizing pointer levels with
  | nil =>
    obtain rfl : pointer = none := points
    cases levels <;> rfl
  | leaf value leaf =>
    obtain ⟨levels, rfl⟩ := Nat.exists_eq_add_one.mpr ((levels_pos leaf.ne_nil).trans_le enough)
    obtain ⟨address, v, rfl, here, read⟩ := (pointsTo_leaf_iff leaf).mp points
    rw [dataValueAt, here.found]
    exact fieldsToDataValue_leaf runtime read
  | composite kind elements ih =>
    rw [levels_composite] at enough
    obtain ⟨levels, rfl⟩ := Nat.exists_eq_add_one.mpr ((Nat.succ_pos _).trans_le enough)
    obtain ⟨address, v, pointers, rfl, here, typ, below⟩ := pointsTo_composite_iff.mp points
    have converted := pointersToDataValues_eq runtime below
      (fun element known pointer one => ih element known one
        ((levels_le_below known).trans (Nat.le_of_succ_le_succ enough))) 0
    rw [dataValueAt, here.found]
    change fieldsToDataValue runtime memory (dataValueAt runtime memory levels) v = _
    cases kind
    all_goals
      simp only [fieldsToDataValue, typ, Composite.type, here.elements.1, converted,
        Option.bind_eq_bind, Option.bind_some, Composite.value, valueToDataValue]
      cases valuesToDataValues runtime 0 elements <;> rfl

end Conversion

end Refinement

end GoMms.Mms
