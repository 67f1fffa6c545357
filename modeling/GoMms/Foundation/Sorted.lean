import Mathlib.Tactic

/-!
# Binary search and ascending lists

The half-open binary search of Go's `slices.BinarySearch` and `sort.Search`, and what it finds in
an ascending list. Insertion at the position it finds keeps the list ascending.
-/

namespace GoMms.Sorted

universe u

/-- Narrow `[lo, hi)` to the first position where `below` fails, as long as `below` holds on an
initial segment only. -/
def search (below : Nat → Bool) (lo hi : Nat) : Nat :=
  if lo < hi then
    let mid := (lo + hi) / 2
    if below mid then search below (mid + 1) hi else search below lo mid
  else lo
termination_by hi - lo

theorem search_bounds (below : Nat → Bool) {lo hi : Nat} (ordered : lo ≤ hi) :
    lo ≤ search below lo hi ∧ search below lo hi ≤ hi := by
  fun_induction search below lo hi with
  | case1 lo hi less mid _ ih | case2 lo hi less mid _ ih =>
    have bounds := ih (by omega)
    omega
  | case3 lo hi done => omega

/-- For a test that holds on an initial segment the search returns the end of that segment. -/
theorem search_spec {below : Nat → Bool} {lo hi : Nat}
    (initial : ∀ first second, first ≤ second → second < hi → below second = true →
      below first = true) :
    (∀ index, lo ≤ index → index < search below lo hi → below index = true) ∧
      ∀ index, search below lo hi ≤ index → index < hi → below index = false := by
  fun_induction search below lo hi with
  | case1 lo hi less mid holds ih =>
    obtain ⟨inside, outside⟩ := ih initial
    refine ⟨fun index above under => ?_, outside⟩
    by_cases left : index ≤ mid
    · exact initial index mid left (by omega) holds
    · exact inside index (by omega) under
  | case2 lo hi less mid fails ih =>
    obtain ⟨inside, outside⟩ := ih fun first second le under =>
      initial first second le (by omega)
    refine ⟨inside, fun index above under => ?_⟩
    by_cases left : index < mid
    · exact outside index above left
    · -- a success at or after `mid` would carry back to `mid`
      by_contra holds
      exact fails (initial mid index (by omega) under (by simpa using holds))
  | case3 lo hi done =>
    exact ⟨fun index above under => absurd under (by omega),
      fun index above under => absurd under (by omega)⟩

section Ascending

variable {α : Type u} [LinearOrder α] {order : List α} {name : α}

/-- Strictly ascending. -/
def Ascending (order : List α) : Prop := order.Pairwise (· < ·)

instance (order : List α) : Decidable (Ascending order) :=
  inferInstanceAs (Decidable (order.Pairwise (· < ·)))

/-- The position `slices.BinarySearch` returns for `name`. -/
def position (order : List α) (name : α) : Nat :=
  search (fun index => (order[index]?.map fun other => decide (other < name)).getD false) 0
    order.length

theorem position_le (order : List α) (name : α) : position order name ≤ order.length :=
  (search_bounds _ (Nat.zero_le _)).2

theorem Ascending.nodup (ascending : Ascending order) : order.Nodup :=
  List.Pairwise.imp (fun less => ne_of_lt less) ascending

theorem Ascending.lt_of_getElem? (ascending : Ascending order) {first second : Nat}
    {earlier later : α} (before : first < second) (firstAt : order[first]? = some earlier)
    (secondAt : order[second]? = some later) : earlier < later := by
  obtain ⟨firstInside, rfl⟩ := List.getElem?_eq_some_iff.mp firstAt
  obtain ⟨secondInside, rfl⟩ := List.getElem?_eq_some_iff.mp secondAt
  exact List.pairwise_iff_getElem.mp ascending _ _ firstInside secondInside before

variable {other : α}

/-- In an ascending list exactly the elements in front of the position are smaller. -/
theorem Ascending.lt_iff (ascending : Ascending order) {index : Nat}
    (found : order[index]? = some other) : other < name ↔ index < position order name := by
  have inside : index < order.length := (List.getElem?_eq_some_iff.mp found).1
  obtain ⟨smaller, larger⟩ := @search_spec
    (fun index => (order[index]?.map fun other => decide (other < name)).getD false) 0
    order.length (by
      intro first second le under holds
      have firstUnder : first < order.length := by omega
      simp only [List.getElem?_eq_getElem under, List.getElem?_eq_getElem firstUnder,
        Option.map_some, Option.getD_some, decide_eq_true_eq] at holds ⊢
      rcases Nat.eq_or_lt_of_le le with rfl | less
      · exact holds
      · exact lt_trans (List.pairwise_iff_getElem.mp ascending _ _ firstUnder under less) holds)
  constructor
  · intro less
    by_contra behind
    have fails := larger index (Nat.not_lt.mp behind) inside
    simp [found, not_le.mpr less] at fails
  · intro front
    have holds := smaller index (Nat.zero_le _) front
    simpa [found] using holds

theorem Ascending.lt_of_mem_take (ascending : Ascending order)
    (member : other ∈ order.take (position order name)) : other < name := by
  obtain ⟨index, found⟩ := List.mem_iff_getElem?.mp member
  rw [List.getElem?_take] at found
  split at found
  · next front => exact (ascending.lt_iff found).mpr front
  · cases found

theorem Ascending.le_of_mem_drop (ascending : Ascending order)
    (member : other ∈ order.drop (position order name)) : name ≤ other := by
  obtain ⟨index, found⟩ := List.mem_iff_getElem?.mp member
  rw [List.getElem?_drop] at found
  by_contra less
  have front := (ascending.lt_iff found).mp (not_le.mp less)
  omega

/-- Insert a name at the position the search returns. -/
def insertSorted (order : List α) (name : α) : List α :=
  order.take (position order name) ++ name :: order.drop (position order name)

@[simp] theorem mem_insertSorted :
    other ∈ insertSorted order name ↔ other = name ∨ other ∈ order := by
  have parts : other ∈ order ↔ other ∈ order.take (position order name) ∨
      other ∈ order.drop (position order name) := by
    rw [← List.mem_append, List.take_append_drop]
  simp only [insertSorted, List.mem_append, List.mem_cons, parts]
  tauto

theorem Ascending.insertSorted (ascending : Ascending order) (fresh : name ∉ order) :
    Ascending (insertSorted order name) := by
  have rest : ∀ other ∈ order.drop (position order name), name < other := fun other member =>
    lt_of_le_of_ne (ascending.le_of_mem_drop member) fun same =>
      fresh (same ▸ List.mem_of_mem_drop member)
  refine List.pairwise_append.mpr ⟨ascending.sublist (List.take_sublist _ _),
    List.pairwise_cons.mpr ⟨rest, ascending.sublist (List.drop_sublist _ _)⟩, ?_⟩
  intro first member second later
  have less := ascending.lt_of_mem_take member
  rcases List.mem_cons.mp later with rfl | later
  · exact less
  · exact lt_trans less (rest second later)

section Erase

variable [BEq α] [LawfulBEq α]

omit [LawfulBEq α] in
theorem Ascending.erase (ascending : Ascending order) (name : α) :
    Ascending (order.erase name) :=
  ascending.sublist List.erase_sublist

theorem Ascending.mem_erase (ascending : Ascending order) :
    other ∈ order.erase name ↔ other ≠ name ∧ other ∈ order :=
  ascending.nodup.mem_erase_iff

end Erase

end Ascending
end GoMms.Sorted
