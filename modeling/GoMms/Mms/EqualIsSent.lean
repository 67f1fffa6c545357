import GoMms.Mms.Deliverable
import GoMms.Mms.ValueRefinement

/-!
# Equal is the equality of what is sent

`Clone` lays out a value in storage of its own, which nothing older has a part in. Without floating
point, values that are `Equal` are the same value of the model, so that they are sent as the same
octets: a difference in time zones, or between a nil and an empty slice, is not sent either
(`equal_is_sent`).
-/

namespace GoMms.Mms

open Berutil Pdu
open MemoryObject (asValue asBytes asInts asPointers)

/-! ## Copies -/

section Clone

variable {memory : ValueMemory} {low : Nat} {value : Value} {pointer : ValuePointer}

theorem sliceAt_new {α : Type} {view : MemoryObject → Option (List α)}
    {store : List α → MemoryObject} (stored : ∀ content, view (store content) = some content)
    (memory : ValueMemory) (content : List α) :
    SliceFrom view (memory ++ [store content]) memory.length
      (some ⟨memory.length, 0, content.length⟩) content := by
  refine ⟨?_, ?_⟩
  · rw [sliceAt, List.getElem?_append_right (Nat.le_refl _), Nat.sub_self]
    simp [stored]
  · rintro window ⟨⟩
    exact Nat.le_refl _

theorem copySlice_spec {α : Type} {view : MemoryObject → Option (List α)}
    {store : List α → MemoryObject} (stored : ∀ content, view (store content) = some content)
    {slice : Option ArrayWindow} {content : List α}
    (read : sliceAt view memory slice = some content) :
    ∃ copy added, copySlice view store memory slice = some (copy, memory ++ added) ∧
      SliceFrom view (memory ++ added) memory.length copy content := by
  cases slice with
  | none =>
    refine ⟨none, [], by rw [copySlice, List.append_nil], ?_, by rintro _ ⟨⟩⟩
    exact read
  | some window =>
    refine ⟨_, [store content], ?_, sliceAt_new stored memory content⟩
    rw [copySlice, read]
    rfl

variable {clone : ValueMemory → ValuePointer → Option (ValuePointer × ValueMemory)}
  {elements : List Value} {pointers : List ValuePointer}

/-- The values are copied one after the other, each into storage of its own. -/
theorem clonePointers_spec (points : List.Forall₂ (PointsTo memory low) elements pointers)
    (each : ∀ element ∈ elements, ∀ memory pointer, PointsTo memory low element pointer →
      ∃ copy added, clone memory pointer = some (copy, memory ++ added) ∧
        PointsTo (memory ++ added) memory.length element copy) :
    ∃ copies added, clonePointers clone memory pointers = some (copies, memory ++ added) ∧
      List.Forall₂ (PointsTo (memory ++ added) memory.length) elements copies := by
  induction elements generalizing memory pointers with
  | nil =>
    cases points
    exact ⟨[], [], by rw [clonePointers, List.append_nil], .nil⟩
  | cons element elements ih =>
    cases points with
    | @cons _ pointer _ pointers here later =>
      obtain ⟨copy, added, cloned, fresh⟩ := each element List.mem_cons_self memory pointer here
      have kept : List.Forall₂ (PointsTo (memory ++ added) low) elements pointers :=
        later.imp fun _ _ one => one.mono (Nat.le_refl low) added
      obtain ⟨copies, more, others, freshOthers⟩ := ih kept
        (fun other known => each other (List.mem_cons_of_mem _ known))
      refine ⟨copy :: copies, added ++ more, ?_, ?_⟩
      · rw [clonePointers, cloned, ← List.append_assoc]
        simp [others]
      · rw [← List.append_assoc]
        refine .cons (fresh.mono (Nat.le_refl _) more) (freshOthers.imp fun other copy one => ?_)
        exact one.weaken (by simp)

theorem cloneElements_spec {slice : Option ArrayWindow}
    (read : sliceAt asPointers memory slice = some pointers)
    (points : List.Forall₂ (PointsTo memory low) elements pointers)
    (each : ∀ element ∈ elements, ∀ memory pointer, PointsTo memory low element pointer →
      ∃ copy added, clone memory pointer = some (copy, memory ++ added) ∧
        PointsTo (memory ++ added) memory.length element copy) :
    ∃ copy copies added, cloneElements clone memory slice = some (copy, memory ++ added) ∧
      SliceFrom asPointers (memory ++ added) memory.length copy copies ∧
      List.Forall₂ (PointsTo (memory ++ added) memory.length) elements copies := by
  cases slice with
  | none =>
    cases read
    cases points
    exact ⟨none, [], [], by rw [cloneElements, List.append_nil], ⟨rfl, by rintro _ ⟨⟩⟩, .nil⟩
  | some window =>
    obtain ⟨copies, added, cloned, fresh⟩ := clonePointers_spec points each
    refine ⟨some ⟨(memory ++ added).length, 0, copies.length⟩, copies,
      added ++ [.pointers copies], ?_, ?_, ?_⟩
    · rw [cloneElements, read, ← List.append_assoc]
      simp [cloned]
    · rw [← List.append_assoc]
      have new := @sliceAt_new _ asPointers .pointers (fun _ => rfl) (memory ++ added) copies
      exact ⟨new.1, fun window member => le_trans (by simp) (new.2 window member)⟩
    · rw [← List.append_assoc]
      exact fresh.imp fun _ _ one => one.mono (Nat.le_refl _) _

theorem leafOf_congr {other : ValueMemory} {v : ValueStruct} {bytesVal oidVal elementsVal :
      Option ArrayWindow}
    (bytes : sliceAt asBytes other bytesVal = sliceAt asBytes memory v.bytesVal)
    (oid : sliceAt asInts other oidVal = sliceAt asInts memory v.oidVal) :
    leafOf other { v with bytesVal := bytesVal, oidVal := oidVal, elementsVal := elementsVal } =
      leafOf memory v := by
  unfold leafOf
  dsimp only
  cases v.typ
  all_goals simp only [bytes, oid]

/-- A struct is copied with its slices and its elements. -/
theorem cloneAt_struct {levels address : Nat} {v : ValueStruct} {elements : List Value}
    {pointers : List ValuePointer} (here : StructFrom memory low address v pointers)
    (points : List.Forall₂ (PointsTo memory low) elements pointers)
    (each : ∀ element ∈ elements, ∀ memory pointer, PointsTo memory low element pointer →
      ∃ copy added, cloneAt levels memory pointer = some (copy, memory ++ added) ∧
        PointsTo (memory ++ added) memory.length element copy) :
    ∃ top c copies added, cloneAt (levels + 1) memory (some address) =
        some (some top, memory ++ added) ∧
      StructFrom (memory ++ added) memory.length top c copies ∧ c.typ = v.typ ∧
      List.Forall₂ (PointsTo (memory ++ added) memory.length) elements copies ∧
      leafOf (memory ++ added) c = leafOf memory v := by
  obtain ⟨bytes, bytesRead, -⟩ := here.bytes
  obtain ⟨oid, oidRead, -⟩ := here.oid
  obtain ⟨bytesVal, first, bytesCopied, bytesFresh⟩ :=
    @copySlice_spec _ _ _ .bytes (fun _ => rfl) _ _ bytesRead
  obtain ⟨oidVal, second, oidCopied, oidFresh⟩ :=
    @copySlice_spec _ _ _ .ints (fun _ => rfl) _ _ (sliceAt_append oidRead first)
  have elementsRead := sliceAt_append (sliceAt_append here.elements.1 first) second
  have kept : List.Forall₂ (PointsTo (memory ++ first ++ second) low) elements pointers :=
    points.imp fun _ _ one => (one.mono (Nat.le_refl low) first).mono (Nat.le_refl low) second
  obtain ⟨elementsVal, copies, third, cloned, elementsFresh, fresh⟩ :=
    cloneElements_spec elementsRead kept each
  let c : ValueStruct :=
    { v with
      bytesVal := bytesVal
      oidVal := oidVal
      elementsVal := elementsVal }
  let last : ValueMemory := [.value c]
  have whole : memory ++ (first ++ second ++ third ++ last) =
      memory ++ first ++ second ++ third ++ last := by simp only [List.append_assoc]
  have afterFirst : memory.length ≤ (memory ++ first).length := by simp
  have afterSecond : memory.length ≤ (memory ++ first ++ second).length := by simp
  have afterThird : memory.length ≤ (memory ++ first ++ second ++ third).length := by simp
  have bytesKept := ((bytesFresh.mono (Nat.le_refl _) second).mono (Nat.le_refl _) third).mono
    (Nat.le_refl _) last
  have oidKept := (oidFresh.mono afterFirst third).mono (Nat.le_refl _) last
  refine ⟨(memory ++ first ++ second ++ third).length, c, copies,
    first ++ second ++ third ++ last, ?_, ?_, rfl, ?_, ?_⟩
  · rw [cloneAt, here.found, whole]
    simp only [Option.bind_eq_bind, Option.bind_some, bytesCopied, oidCopied, cloned, c, last]
  · rw [whole]
    refine ⟨afterThird, ?_, ⟨bytes, bytesKept⟩, ⟨oid, oidKept⟩, elementsFresh.mono afterSecond last⟩
    rw [structAt, List.getElem?_append_right (Nat.le_refl _), Nat.sub_self]
    rfl
  · rw [whole]
    exact fresh.imp fun _ _ one => one.mono afterSecond last
  · rw [whole]
    exact leafOf_congr (bytesKept.1.trans bytesRead.symm) (oidKept.1.trans oidRead.symm)

/-- `Clone` lays the value out in new storage. -/
theorem cloneAt_spec {levels : Nat} (points : PointsTo memory low value pointer)
    (enough : value.levels ≤ levels) :
    ∃ copy added, cloneAt levels memory pointer = some (copy, memory ++ added) ∧
      PointsTo (memory ++ added) memory.length value copy := by
  induction value using Value.induction_elements generalizing memory pointer levels with
  | nil =>
    obtain rfl : pointer = none := points
    refine ⟨none, [], ?_, rfl⟩
    cases levels <;> rw [cloneAt, List.append_nil]
  | leaf value leaf =>
    obtain ⟨levels, rfl⟩ := Nat.exists_eq_add_one.mpr ((levels_pos leaf.ne_nil).trans_le enough)
    obtain ⟨address, v, rfl, here, read⟩ := (pointsTo_leaf_iff leaf).mp points
    obtain ⟨top, c, copies, added, cloned, there, typ, none, same⟩ :=
      @cloneAt_struct _ _ levels _ _ [] _ here .nil (by rintro _ ⟨⟩)
    cases none
    exact ⟨some top, added, cloned,
      (pointsTo_leaf_iff leaf).mpr ⟨top, c, rfl, there, same.trans read⟩⟩
  | composite kind elements ih =>
    rw [levels_composite] at enough
    obtain ⟨levels, rfl⟩ := Nat.exists_eq_add_one.mpr ((Nat.succ_pos _).trans_le enough)
    obtain ⟨address, v, pointers, rfl, here, typ, below⟩ := pointsTo_composite_iff.mp points
    obtain ⟨top, c, copies, added, cloned, there, same, fresh, -⟩ :=
      cloneAt_struct here below fun element known memory pointer one =>
        ih element known one ((levels_le_below known).trans (Nat.le_of_succ_le_succ enough))
    exact ⟨some top, added, cloned, pointsTo_composite_iff.mpr
      ⟨top, c, copies, rfl, there, same.trans typ, fresh⟩⟩

end Clone

/-! ## What is sent -/

/-- No leaf is floating point. -/
def Value.NoFloats (value : Value) : Prop :=
  ∀ leaf ∈ value.leaves, ∀ bits, leaf ≠ .float bits ∧ leaf ≠ .real bits

/-- Without floating point, `Equal` leaves nothing out. -/
theorem Value.eq_of_equal {first second : Value} (plain : first.NoFloats)
    (same : first.equal second = true) : first = second := by
  induction first using Value.induction_elements generalizing second with
  | nil =>
    cases second with
    | nil => rfl
    | _ => cases same
  | leaf first leaf =>
    cases first with
    | nil | array _ | struct _ => exact leaf.elim
    | float bits => exact ((plain _ (List.mem_singleton_self _) bits).1 rfl).elim
    | real bits => exact ((plain _ (List.mem_singleton_self _) bits).2 rfl).elim
    | _ =>
      cases second
      all_goals first
        | cases same
        | simpa [Value.equal, and_comm] using same
  | composite kind elements ih =>
    obtain ⟨seconds, rfl⟩ := eq_composite_of_type
      ((Value.type_eq_of_equal same).symm.trans (type_composite kind elements))
    rw [Value.equal_composite, equalElements_iff] at same
    have plain := forall_leaves_composite.mp plain
    have equals := Tracing.forall₂_imp_of_mem same fun element known second =>
      ih element known (plain element known)
    rw [List.forall₂_eq_eq_eq] at equals
    rw [equals]

/-- **Equal is the equality of what is sent.** On any pointers `Equal` is symmetric and transitive.
On a tree of values it answers, and a tree equals itself. Its clone is equal to it and has no
storage in common with it, nor with anything that was there before. Trees without floating point
that are equal are converted and encoded with the same result, the same octets or the same error. -/
theorem equal_is_sent (runtime : Runtime) (memory : ValueMemory) (levels : Nat) :
    (∀ p q, equalAt memory levels p q = equalAt memory levels q p) ∧
    (∀ p q r, equalAt memory levels p q = some true → equalAt memory levels q r = some true →
      equalAt memory levels p r = some true) ∧
    ∀ v p, PointsTo memory 0 v p → v.levels ≤ levels →
      equalAt memory levels p p = some true ∧
      (∃ copy after, cloneAt levels memory p = some (copy, after) ∧
        equalAt after levels copy p = some true ∧
        ∀ address, Storage after copy address →
          memory.length ≤ address ∧ ¬Storage after p address) ∧
      ∀ w q, PointsTo memory 0 w q → w.levels ≤ levels →
        (∃ answer, equalAt memory levels p q = some answer) ∧
        (v.NoFloats → w.NoFloats → equalAt memory levels p q = some true →
          ∃ converted octets,
            dataValueAt runtime memory levels p = some converted ∧
            dataValueAt runtime memory levels q = some converted ∧
            octetsAt runtime memory levels p = some octets ∧
            octetsAt runtime memory levels q = some octets) := by
  refine ⟨equalAt_comm memory levels, equalAt_trans memory levels, fun v p points enough => ?_⟩
  refine ⟨?_, ?_, fun w q pointsOther enoughOther =>
    ⟨⟨_, equalAt_eq points pointsOther enough⟩, ?_⟩⟩
  · rw [equalAt_eq points points enough, Value.equal_self]
  · obtain ⟨copy, added, cloned, fresh⟩ := cloneAt_spec points enough
    have kept := points.mono (Nat.le_refl 0) added
    refine ⟨copy, memory ++ added, cloned, ?_, fun address stored => ?_⟩
    · rw [equalAt_eq (fresh.weaken (Nat.zero_le _)) kept enough, Value.equal_self]
    · have whole : Storage (memory ++ added ++ []) copy address := by rwa [List.append_nil]
      have bounds := fresh.storage whole
      refine ⟨bounds.1, fun shared => ?_⟩
      have older := points.storage shared
      omega
  · intro plain _ same
    rw [equalAt_eq points pointsOther enough, Option.some.injEq] at same
    obtain rfl := Value.eq_of_equal plain same
    have first := dataValueAt_eq runtime points enough
    have second := dataValueAt_eq runtime pointsOther enough
    exact ⟨_, _, first, second, by rw [octetsAt, first]; rfl, by rw [octetsAt, second]; rfl⟩

/-- Two structures of an instant and no octets. They show the instant in different zones, and the
octets of the first are nil and those of the second empty. -/
def twoZones : ValueMemory :=
  [.bytes [],
    .value { typ := .utcTime, timeVal := ⟨.ofUnix 0 0, 0⟩ },
    .value { typ := .octetString },
    .pointers [some 1, some 2],
    .value { typ := .struct, elementsVal := some ⟨3, 0, 2⟩ },
    .value { typ := .utcTime, timeVal := ⟨.ofUnix 0 0, 3600⟩ },
    .value { typ := .octetString, bytesVal := some ⟨0, 0, 0⟩ },
    .pointers [some 5, some 6],
    .value { typ := .struct, elementsVal := some ⟨7, 0, 2⟩ }]

def zonedValue : Value := .struct [.utcTime (.ofUnix 0 0) 0, .octetString []]

theorem pointsTo_twoZones :
    PointsTo twoZones 0 zonedValue (some 4) ∧ PointsTo twoZones 0 zonedValue (some 8) := by
  have window {slice : Option ArrayWindow} : ∀ window ∈ slice, 0 ≤ window.array :=
    fun window _ => Nat.zero_le window.array
  have first : PointsTo twoZones 0 (.utcTime (.ofUnix 0 0) 0) (some 1) :=
    ⟨1, _, rfl, ⟨Nat.zero_le _, rfl, ⟨[], rfl, window⟩, ⟨[], rfl, window⟩, rfl, window⟩, rfl⟩
  have second : PointsTo twoZones 0 (.octetString []) (some 2) :=
    ⟨2, _, rfl, ⟨Nat.zero_le _, rfl, ⟨[], rfl, window⟩, ⟨[], rfl, window⟩, rfl, window⟩, rfl⟩
  have third : PointsTo twoZones 0 (.utcTime (.ofUnix 0 0) 0) (some 5) :=
    ⟨5, _, rfl, ⟨Nat.zero_le _, rfl, ⟨[], rfl, window⟩, ⟨[], rfl, window⟩, rfl, window⟩, rfl⟩
  have fourth : PointsTo twoZones 0 (.octetString []) (some 6) :=
    ⟨6, _, rfl, ⟨Nat.zero_le _, rfl, ⟨[], rfl, window⟩, ⟨[], rfl, window⟩, rfl, window⟩, rfl⟩
  constructor
  · exact ⟨4, _, [some 1, some 2], rfl,
      ⟨Nat.zero_le _, rfl, ⟨[], rfl, window⟩, ⟨[], rfl, window⟩, rfl, window⟩, rfl,
      _, _, rfl, first, _, _, rfl, second, rfl⟩
  · exact ⟨8, _, [some 5, some 6], rfl,
      ⟨Nat.zero_le _, rfl, ⟨[], rfl, window⟩, ⟨[], rfl, window⟩, rfl, window⟩, rfl,
      _, _, rfl, third, _, _, rfl, fourth, rfl⟩

theorem equal_is_sent_twoZones :
    equalAt twoZones 2 (some 4) (some 8) = some true ∧ ∃ octets,
      octetsAt default twoZones 2 (some 4) = some octets ∧
      octetsAt default twoZones 2 (some 8) = some octets := by
  have plain : zonedValue.NoFloats := by
    refine List.forall_mem_cons.mpr ⟨?_, List.forall_mem_singleton.mpr ?_⟩
    all_goals exact fun _ => ⟨by rintro ⟨⟩, by rintro ⟨⟩⟩
  have same : equalAt twoZones 2 (some 4) (some 8) = some true := by decide
  obtain ⟨-, -, trees⟩ := equal_is_sent default twoZones 2
  obtain ⟨-, -, pairs⟩ := trees zonedValue (some 4) pointsTo_twoZones.1 (by decide)
  obtain ⟨-, sent⟩ := pairs zonedValue (some 8) pointsTo_twoZones.2 (by decide)
  obtain ⟨-, octets, -, -, first, second⟩ := sent plain plain same
  exact ⟨same, octets, first, second⟩

end GoMms.Mms
