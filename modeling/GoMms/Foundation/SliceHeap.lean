import Mathlib.Tactic

/-!
# Slices of shared arrays

A Go slice is a window on an array that other slices may share. Inserting and removing one element
write to the array in place as long as the capacity allows and move to a fresh array otherwise;
the capacity of a fresh array is up to the allocator. Every cell write is kept in a log, so that
a reader who does not hold the writer's lock can be shown any part of it.
-/

namespace GoMms.SliceHeap

universe u

variable {α : Type u}

/-- The contents of all arrays. -/
abbrev Cells (α : Type u) := Nat → Nat → α

/-- The header of a slice; the nil slice has capacity zero. -/
structure Slice where
  array : Nat
  offset : Nat
  length : Nat
  cap : Nat
  deriving DecidableEq, Repr

def Slice.nil : Slice := ⟨0, 0, 0, 0⟩

/-- `slice[start : start+length]`. -/
def Slice.sub (slice : Slice) (start length : Nat) : Slice :=
  ⟨slice.array, slice.offset + start, length, slice.cap - start⟩

/-- Element `index` of a slice. -/
def Slice.get (slice : Slice) (cells : Cells α) (index : Nat) : α :=
  cells slice.array (slice.offset + index)

/-- The elements of a slice. -/
def Slice.elements (slice : Slice) (cells : Cells α) : List α :=
  (List.range slice.length).map (slice.get cells)

/-- The slice has the cell in its window. -/
def Slice.covers (slice : Slice) (array index : Nat) : Prop :=
  array = slice.array ∧ slice.offset ≤ index ∧ index < slice.offset + slice.length

instance (slice : Slice) (array index : Nat) : Decidable (slice.covers array index) :=
  inferInstanceAs (Decidable (_ ∧ _))

@[simp] theorem length_elements (slice : Slice) (cells : Cells α) :
    (slice.elements cells).length = slice.length := by
  simp [Slice.elements]

theorem getElem?_elements (slice : Slice) (cells : Cells α) {index : Nat}
    (inside : index < slice.length) :
    (slice.elements cells)[index]? = some (slice.get cells index) := by
  simp [Slice.elements, inside]

theorem take_elements (slice : Slice) (cells : Cells α) {count : Nat}
    (inside : count ≤ slice.length) :
    (slice.elements cells).take count = (List.range count).map (slice.get cells) := by
  rw [Slice.elements, ← List.map_take, List.take_range, Nat.min_eq_left inside]

theorem elements_congr {slice : Slice} {cells other : Cells α}
    (same : ∀ index, slice.covers slice.array index →
      other slice.array index = cells slice.array index) :
    slice.elements other = slice.elements cells := by
  refine List.map_congr_left fun index member => ?_
  have inside := List.mem_range.mp member
  exact same _ ⟨rfl, by omega, by omega⟩

theorem elements_sub {slice : Slice} {start length : Nat} (cells : Cells α)
    (inside : start + length ≤ slice.length) :
    (slice.sub start length).elements cells = ((slice.elements cells).drop start).take length := by
  refine List.ext_getElem? fun index => ?_
  rw [List.getElem?_take, List.getElem?_drop]
  split
  · rename_i below
    rw [getElem?_elements _ _ (show index < (slice.sub start length).length from below),
      getElem?_elements _ _ (by omega)]
    simp [Slice.get, Slice.sub, Nat.add_assoc]
  rename_i beyond
  exact List.getElem?_eq_none (by simpa [Slice.sub] using beyond)

/-! ## Writes -/

structure Write (α : Type u) where
  array : Nat
  index : Nat
  value : α

def Write.apply (write : Write α) (cells : Cells α) : Cells α := fun array index =>
  if array = write.array ∧ index = write.index then write.value else cells array index

def applyAll (writes : List (Write α)) (cells : Cells α) : Cells α :=
  writes.foldl (fun cells write => write.apply cells) cells

@[simp] theorem applyAll_nil (cells : Cells α) : applyAll [] cells = cells := rfl

theorem applyAll_cons (write : Write α) (writes : List (Write α)) (cells : Cells α) :
    applyAll (write :: writes) cells = applyAll writes (write.apply cells) := rfl

theorem applyAll_append (first second : List (Write α)) (cells : Cells α) :
    applyAll (first ++ second) cells = applyAll second (applyAll first cells) :=
  List.foldl_append

/-- Give the cells `indices` of an array their values, in this order. -/
def fill (array : Nat) (indices : List Nat) (value : Nat → α) : List (Write α) :=
  indices.map fun index => ⟨array, index, value index⟩

theorem applyAll_fill (array : Nat) (indices : List Nat) (value : Nat → α) (cells : Cells α)
    (other index : Nat) :
    applyAll (fill array indices value) cells other index =
      if other = array ∧ index ∈ indices then value index else cells other index := by
  induction indices generalizing cells with
  | nil => simp [fill]
  | cons first indices ih =>
    change applyAll (fill array indices value) (Write.apply ⟨array, first, value first⟩ cells)
      other index = _
    rw [ih, Write.apply]
    by_cases here : other = array
    · by_cases rest : index ∈ indices
      · simp [here, rest]
      · by_cases same : index = first
        · simp [here, same]
        · simp [here, rest, same]
    · simp [here]

/-- The arrays as the holder of the lock sees them, the next free array and the writes made. -/
structure Heap (α : Type u) where
  cells : Cells α
  next : Nat
  log : List (Write α)

/-- Make writes. -/
def Heap.write (heap : Heap α) (writes : List (Write α)) : Heap α :=
  { heap with cells := applyAll writes heap.cells, log := heap.log ++ writes }

/-- Take a fresh array. -/
def Heap.alloc (heap : Heap α) : Heap α := { heap with next := heap.next + 1 }

/-- The log leads from these cells to the contents of the heap. -/
def Heap.LoggedFrom (heap : Heap α) (cells : Cells α) : Prop :=
  heap.cells = applyAll heap.log cells

theorem Heap.LoggedFrom.write {heap : Heap α} {cells : Cells α} (logged : heap.LoggedFrom cells)
    (writes : List (Write α)) : (heap.write writes).LoggedFrom cells := by
  change applyAll writes heap.cells = applyAll (heap.log ++ writes) cells
  rw [applyAll_append, ← logged]

theorem cells_write_fill (heap : Heap α) {array other : Nat} (indices : List Nat)
    (value : Nat → α) (index : Nat) (different : other ≠ array) :
    (heap.write (fill array indices value)).cells other index = heap.cells other index := by
  change applyAll (fill array indices value) heap.cells other index = _
  rw [applyAll_fill, if_neg fun both => different both.1]

/-! ## Insertion and removal -/

section Edit

variable [Inhabited α] (grow : Nat → Nat → Nat)

/-- `slices.Insert(slice, position, value)`: elements move towards the end in place, the last one
first, or everything is copied to a fresh array whose capacity `grow` chooses. -/
def insertAt (slice : Slice) (position : Nat) (value : α) (heap : Heap α) : Slice × Heap α :=
  let elements := (slice.elements heap.cells).take position ++
    value :: (slice.elements heap.cells).drop position
  let length := slice.length + 1
  if length ≤ slice.cap then
    ({ slice with length := length },
      heap.write (fill slice.array
        (List.range' (slice.offset + position) (length - position)).reverse
        fun index => elements.getD (index - slice.offset) default))
  else
    (⟨heap.next, 0, length, max length (grow slice.cap length)⟩,
      heap.alloc.write (fill heap.next (List.range length)
        fun index => elements.getD index default))

/-- `append(slice[:position], slice[position+1:]...)`: elements move towards the front in place,
the first one first. -/
def removeAt (slice : Slice) (position : Nat) (heap : Heap α) : Slice × Heap α :=
  let elements := (slice.elements heap.cells).eraseIdx position
  let length := slice.length - 1
  ({ slice with length := length },
    heap.write (fill slice.array (List.range' (slice.offset + position) (length - position))
      fun index => elements.getD (index - slice.offset) default))

/-! ## What an edit does -/

/-- An edit of `slice` leaves `content` in the slice it returns, which lies in the same array or
in a fresh one, and touches no other array. -/
structure Edited (slice : Slice) (heap : Heap α) (content : List α) (result : Slice × Heap α) :
    Prop where
  elements : result.1.elements result.2.cells = content
  within : result.1.length ≤ result.1.cap
  home : 0 < result.1.cap →
    0 < slice.cap ∧ result.1.array = slice.array ∨ result.1.array = heap.next
  allocated : 0 < result.1.cap → result.1.array < result.2.next
  next_le : heap.next ≤ result.2.next
  frame : ∀ array index, slice.cap = 0 ∨ array ≠ slice.array → array < heap.next →
    result.2.cells array index = heap.cells array index
  logged : ∀ cells, heap.LoggedFrom cells → result.2.LoggedFrom cells

/-- Cells that are filled from `content`, or hold it already, make up `content`. -/
theorem elements_applyAll_fill {slice : Slice} {indices : List Nat} {value : Nat → α}
    {cells : Cells α} {content : List α} (size : content.length = slice.length)
    (written : ∀ index, index < slice.length → slice.offset + index ∈ indices →
      value (slice.offset + index) = content.getD index default)
    (kept : ∀ index, index < slice.length → slice.offset + index ∉ indices →
      slice.get cells index = content.getD index default) :
    slice.elements (applyAll (fill slice.array indices value) cells) = content := by
  refine List.ext_getElem? fun index => ?_
  by_cases inside : index < slice.length
  · rw [getElem?_elements _ _ inside, Slice.get, applyAll_fill]
    have item : content[index]? = some (content.getD index default) := by
      have bound : index < content.length := size ▸ inside
      simp [List.getD_eq_getElem?_getD, List.getElem?_eq_getElem bound]
    rw [item, Option.some.injEq]
    by_cases member : slice.offset + index ∈ indices
    · rw [if_pos ⟨rfl, member⟩]
      exact written index inside member
    · rw [if_neg fun both => member both.2]
      exact kept index inside member
  · rw [List.getElem?_eq_none (by simpa using inside), List.getElem?_eq_none (by omega)]

/-- Element `index` of a slice, read through its list of elements. -/
theorem get_eq_getD (slice : Slice) (cells : Cells α) {index : Nat}
    (inside : index < slice.length) :
    slice.get cells index = (slice.elements cells).getD index default := by
  rw [List.getD_eq_getElem?_getD, getElem?_elements slice cells inside, Option.getD_some]

variable {grow} {slice : Slice} {heap : Heap α} {position : Nat}

/-- The elements from a position on are written in place; those in front of it stay. -/
theorem inPlace_edited {content : List α} {length : Nat} {indices : List Nat}
    (size : content.length = length) (room : length ≤ slice.cap) (used : slice.cap ≠ 0)
    (inside : position ≤ slice.length)
    (allocated : 0 < slice.cap → slice.array < heap.next)
    (touched : ∀ index, position ≤ index → index < length → slice.offset + index ∈ indices)
    (front : ∀ index < position,
      (slice.elements heap.cells).getD index default = content.getD index default) :
    Edited slice heap content ({ slice with length := length }, heap.write
      (fill slice.array indices fun index => content.getD (index - slice.offset) default)) := by
  refine ⟨?_, room, fun used => .inl ⟨used, rfl⟩, allocated, le_refl _, ?_,
    fun cells logged => logged.write _⟩
  · refine @elements_applyAll_fill _ _ { slice with length := length } _ _ _ _ size ?_ ?_
    · intro index below member
      rw [Nat.add_sub_cancel_left]
    · intro index below outside
      have early : index < position := by
        by_contra behind
        exact outside (touched index (Nat.not_lt.mp behind) below)
      rw [← front index early]
      exact get_eq_getD slice heap.cells (show index < slice.length by omega)
  · intro array index other below
    exact cells_write_fill heap _ _ index (other.resolve_left used)

theorem insertAt_edited (value : α) (inside : position ≤ slice.length)
    (allocated : 0 < slice.cap → slice.array < heap.next) :
    Edited slice heap ((slice.elements heap.cells).take position ++
      value :: (slice.elements heap.cells).drop position)
      (insertAt grow slice position value heap) := by
  set content := (slice.elements heap.cells).take position ++
    value :: (slice.elements heap.cells).drop position with written
  have size : content.length = slice.length + 1 := by
    simp only [written, List.length_append, List.length_cons, List.length_take, List.length_drop,
      length_elements]
    omega
  unfold insertAt
  simp only [← written]
  split
  · rename_i room
    refine inPlace_edited size room (by omega) inside allocated ?_ ?_
    · intro index behind below
      refine List.mem_reverse.mpr (List.mem_range'_1.mpr ?_)
      omega
    · intro index early
      have taken : index < ((slice.elements heap.cells).take position).length := by
        rw [List.length_take, length_elements]
        omega
      simp only [written, List.getD_eq_getElem?_getD, List.getElem?_append_left taken,
        List.getElem?_take, early, if_true]
  · refine ⟨?_, Nat.le_max_left _ _, fun _ => .inr rfl, fun _ => Nat.lt_succ_self _,
      Nat.le_succ _, ?_,
      fun cells logged => Heap.LoggedFrom.write logged _⟩
    · refine @elements_applyAll_fill _ _
        ⟨heap.next, 0, slice.length + 1, max (slice.length + 1) (grow slice.cap (slice.length + 1))⟩
        _ _ _ _ size ?_ ?_
      · intro index below member
        simp only [Nat.zero_add]
      · intro index below outside
        exact (outside (List.mem_range.mpr (by simpa using below))).elim
    · intro array index other below
      exact cells_write_fill heap.alloc _ _ index (Nat.ne_of_lt below)

theorem removeAt_edited (inside : position < slice.length) (within : slice.length ≤ slice.cap)
    (allocated : 0 < slice.cap → slice.array < heap.next) :
    Edited slice heap ((slice.elements heap.cells).eraseIdx position)
      (removeAt slice position heap) := by
  have size : ((slice.elements heap.cells).eraseIdx position).length = slice.length - 1 := by
    rw [List.length_eraseIdx, length_elements, if_pos inside]
  refine inPlace_edited size (by omega) (by omega) inside.le allocated ?_ ?_
  · intro index behind below
    refine List.mem_range'_1.mpr ?_
    omega
  · intro index early
    simp [List.getD_eq_getElem?_getD, List.getElem?_eraseIdx, early]

omit [Inhabited α] in
/-- Doing nothing is an edit. -/
theorem edited_refl (within : slice.length ≤ slice.cap)
    (allocated : 0 < slice.cap → slice.array < heap.next) :
    Edited slice heap (slice.elements heap.cells) (slice, heap) :=
  ⟨rfl, within, fun used => .inl ⟨used, rfl⟩, allocated, le_refl _, fun _ _ _ _ => rfl,
    fun _ logged => logged⟩

end Edit

/-! ## Slices with arrays of their own -/

section Owned

variable {ι : Type*} [DecidableEq ι]

/-- No two slices of the family share an array. -/
structure Owned (slices : ι → Slice) (next : Nat) : Prop where
  within : ∀ i, (slices i).length ≤ (slices i).cap
  allocated : ∀ i, 0 < (slices i).cap → (slices i).array < next
  separate : ∀ i j, i ≠ j → 0 < (slices i).cap → 0 < (slices j).cap →
    (slices i).array ≠ (slices j).array

variable {slices : ι → Slice} {heap : Heap α} {content : List α} {result : Slice × Heap α} {i : ι}

/-- An edit of one slice keeps the family apart. -/
theorem Owned.edit (owned : Owned slices heap.next)
    (edited : Edited (slices i) heap content result) :
    Owned (Function.update slices i result.1) result.2.next := by
  have apart : ∀ j, j ≠ i → 0 < result.1.cap → 0 < (slices j).cap →
      result.1.array ≠ (slices j).array := by
    intro j other kept used same
    rcases edited.home kept with ⟨here, home⟩ | fresh
    · exact owned.separate i j other.symm here used (home.symm.trans same)
    · have old := owned.allocated j used
      omega
  refine ⟨fun j => ?_, fun j => ?_, fun j k different => ?_⟩
  · by_cases here : j = i
    · subst here
      simpa using edited.within
    · simpa [here] using owned.within j
  · by_cases here : j = i
    · subst here
      simpa using edited.allocated
    · intro used
      simp only [Function.update_of_ne here] at used ⊢
      exact lt_of_lt_of_le (owned.allocated j used) edited.next_le
  · by_cases first : j = i
    · subst first
      intro kept used
      simp only [Function.update_self, Function.update_of_ne different.symm] at kept used ⊢
      exact apart k different.symm kept used
    · by_cases second : k = i
      · subst second
        intro used kept
        simp only [Function.update_self, Function.update_of_ne first] at used kept ⊢
        exact (apart j first kept used).symm
      · simpa [first, second] using owned.separate j k different

omit [DecidableEq ι] in
/-- An edit of one slice leaves the elements of the others. -/
theorem Owned.elements_edit (owned : Owned slices heap.next)
    (edited : Edited (slices i) heap content result) {j : ι} (other : j ≠ i) :
    (slices j).elements result.2.cells = (slices j).elements heap.cells := by
  refine elements_congr fun index covered => ?_
  have used : 0 < (slices j).cap := by
    have within := owned.within j
    have bounds := covered.2
    omega
  refine edited.frame _ _ ?_ (owned.allocated j used)
  by_cases empty : (slices i).cap = 0
  · exact .inl empty
  · exact .inr (owned.separate j i other used (by omega))

end Owned
end GoMms.SliceHeap
