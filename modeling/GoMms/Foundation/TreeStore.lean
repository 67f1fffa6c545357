import Mathlib.Tactic

/-!
# Trees of pointers

A store holds labelled cells whose children are pointers, possibly nil and possibly shared. A
pointer denotes a tree. A deep copy lays the tree out in fresh cells, each used once, so that one
of them can be assigned to without any other part of the copy, or anything older, noticing.
-/

namespace GoMms.TreeStore

universe u

variable {α : Type u}

inductive Rose (α : Type u) where
  | nil
  | node (label : α) (children : List (Rose α))

/-- An address, or nil. -/
abbrev Pointer := Option Nat

structure Cell (α : Type u) where
  label : α
  children : List Pointer

abbrev Store (α : Type u) := List (Cell α)

mutual

/-- Levels of nodes. -/
def Rose.height : Rose α → Nat
  | .nil => 0
  | .node _ children => Rose.heightAll children + 1

def Rose.heightAll : List (Rose α) → Nat
  | [] => 0
  | child :: rest => max child.height (Rose.heightAll rest)

end

mutual

/-- The pointer leads to a copy of the tree; cells may be shared. -/
def Denotes (store : Store α) : Rose α → Pointer → Prop
  | .nil, pointer => pointer = none
  | .node label children, pointer =>
    ∃ address pointers, pointer = some address ∧ store[address]? = some ⟨label, pointers⟩ ∧
      DenotesAll store children pointers

def DenotesAll (store : Store α) : List (Rose α) → List Pointer → Prop
  | [], pointers => pointers = []
  | child :: rest, pointers =>
    ∃ pointer others, pointers = pointer :: others ∧ Denotes store child pointer ∧
      DenotesAll store rest others

end

mutual

/-- The tree fills the cells from `low` to below `high`, each node after its children. -/
def Laid (store : Store α) : Rose α → Pointer → (low high : Nat) → Prop
  | .nil, pointer, low, high => pointer = none ∧ low = high
  | .node label children, pointer, low, high =>
    ∃ pointers top, LaidAll store children pointers low top ∧ pointer = some top ∧
      store[top]? = some ⟨label, pointers⟩ ∧ high = top + 1

def LaidAll (store : Store α) : List (Rose α) → List Pointer → (low high : Nat) → Prop
  | [], pointers, low, high => pointers = [] ∧ low = high
  | child :: rest, pointers, low, high =>
    ∃ pointer others mid, pointers = pointer :: others ∧ Laid store child pointer low mid ∧
      LaidAll store rest others mid high

end

/-! ## Deep copies -/

def cloneAll (clone : Store α → Pointer → Option (Pointer × Store α)) :
    Store α → List Pointer → Option (List Pointer × Store α)
  | store, [] => some ([], store)
  | store, pointer :: rest =>
    match clone store pointer with
    | none => none
    | some (copy, store) =>
      match cloneAll clone store rest with
      | none => none
      | some (copies, store) => some (copy :: copies, store)

/-- A deep copy to the given number of levels; `none` if the tree is higher or dangles. -/
def clone : Nat → Store α → Pointer → Option (Pointer × Store α)
  | _, store, none => some (none, store)
  | 0, _, some _ => none
  | fuel + 1, store, some address =>
    match store[address]? with
    | none => none
    | some cell =>
      match cloneAll (clone fuel) store cell.children with
      | none => none
      | some (children, store) =>
        some (some store.length, store ++ [⟨cell.label, children⟩])

/-- Assign to a child of the cell at `address`. -/
def setChild (store : Store α) (address index : Nat) (child : Pointer) : Store α :=
  match store[address]? with
  | none => store
  | some cell => store.set address { cell with children := cell.children.set index child }

/-! ## Frames -/

section Frames

variable {store other : Store α}

/-- No cell of the first store is lost or changed in the second. -/
def Keeps (store other : Store α) : Prop :=
  ∀ (address : Nat) (cell : Cell α), store[address]? = some cell → other[address]? = some cell

theorem Keeps.lt_length {address : Nat} {cell : Cell α} (present : store[address]? = some cell) :
    address < store.length :=
  (List.getElem?_eq_some_iff.mp present).1

theorem keeps_append (store added : Store α) : Keeps store (store ++ added) := by
  intro address cell present
  rwa [List.getElem?_append_left (Keeps.lt_length present)]

mutual

theorem Denotes.mono (keeps : Keeps store other) : {tree : Rose α} → {pointer : Pointer} →
    Denotes store tree pointer → Denotes other tree pointer
  | .nil, _, absent => absent
  | .node _ _, _, ⟨address, pointers, same, cell, below⟩ =>
    ⟨address, pointers, same, keeps address _ cell, below.mono keeps⟩

theorem DenotesAll.mono (keeps : Keeps store other) :
    {trees : List (Rose α)} → {pointers : List Pointer} →
    DenotesAll store trees pointers → DenotesAll other trees pointers
  | [], _, empty => empty
  | _ :: _, _, ⟨pointer, others, same, first, rest⟩ =>
    ⟨pointer, others, same, first.mono keeps, rest.mono keeps⟩

end

mutual

theorem Laid.le : {tree : Rose α} → {pointer : Pointer} → {low high : Nat} →
    Laid store tree pointer low high → low ≤ high
  | .nil, _, _, _, ⟨_, same⟩ => same.le
  | .node _ _, _, _, _, ⟨_, _, below, _, _, same⟩ => by
      have := below.le
      omega

theorem LaidAll.le : {trees : List (Rose α)} → {pointers : List Pointer} → {low high : Nat} →
    LaidAll store trees pointers low high → low ≤ high
  | [], _, _, _, ⟨_, same⟩ => same.le
  | _ :: _, _, _, _, ⟨_, _, _, _, first, rest⟩ => first.le.trans rest.le

end

mutual

/-- A laid tree is denoted in every store that agrees on its cells. -/
theorem Laid.denotes : {tree : Rose α} → {pointer : Pointer} → {low high : Nat} →
    Laid store tree pointer low high →
    (∀ address, low ≤ address → address < high → other[address]? = store[address]?) →
    Denotes other tree pointer
  | .nil, _, _, _, ⟨absent, _⟩, _ => absent
  | .node _ _, _, _, _, ⟨pointers, top, below, same, cell, end_eq⟩, agree => by
      have order := below.le
      refine ⟨top, pointers, same, ?_, below.denotes fun address above under => ?_⟩
      · rw [agree top order (by omega), cell]
      · exact agree address above (by omega)

theorem LaidAll.denotes : {trees : List (Rose α)} → {pointers : List Pointer} →
    {low high : Nat} → LaidAll store trees pointers low high →
    (∀ address, low ≤ address → address < high → other[address]? = store[address]?) →
    DenotesAll other trees pointers
  | [], _, _, _, ⟨empty, _⟩, _ => empty
  | _ :: _, _, _, _, ⟨pointer, others, mid, same, first, rest⟩, agree => by
      have firstOrder := first.le
      have restOrder := rest.le
      refine ⟨pointer, others, same, first.denotes fun address above under => ?_,
        rest.denotes fun address above under => ?_⟩
      · exact agree address above (by omega)
      · exact agree address (by omega) under

end

mutual

theorem Laid.mono (keeps : Keeps store other) :
    {tree : Rose α} → {pointer : Pointer} → {low high : Nat} →
    Laid store tree pointer low high → Laid other tree pointer low high
  | .nil, _, _, _, laid => laid
  | .node _ _, _, _, _, ⟨pointers, top, below, same, cell, end_eq⟩ =>
    ⟨pointers, top, below.mono keeps, same, keeps top _ cell, end_eq⟩

theorem LaidAll.mono (keeps : Keeps store other) :
    {trees : List (Rose α)} → {pointers : List Pointer} →
    {low high : Nat} → LaidAll store trees pointers low high →
    LaidAll other trees pointers low high
  | [], _, _, _, laid => laid
  | _ :: _, _, _, _, ⟨pointer, others, mid, same, first, rest⟩ =>
    ⟨pointer, others, mid, same, first.mono keeps, rest.mono keeps⟩

end

theorem DenotesAll.length_eq : {trees : List (Rose α)} → {pointers : List Pointer} →
    DenotesAll store trees pointers → pointers.length = trees.length
  | [], _, empty => by rw [empty]; rfl
  | _ :: _, _, ⟨_, _, same, _, rest⟩ => by
      rw [same, List.length_cons, List.length_cons, rest.length_eq]

/-- Replacing a child and the pointer to it. -/
theorem DenotesAll.set {tree : Rose α} {pointer : Pointer} (new : Denotes store tree pointer) :
    {trees : List (Rose α)} → {pointers : List Pointer} → (index : Nat) →
    DenotesAll store trees pointers →
    DenotesAll store (trees.set index tree) (pointers.set index pointer)
  | [], _, _, empty => by rw [empty]; rfl
  | _ :: _, _, 0, ⟨_, others, same, _, rest⟩ => ⟨pointer, others, by rw [same]; rfl, new, rest⟩
  | _ :: _, _, index + 1, ⟨first, others, same, firstDenotes, rest⟩ =>
    ⟨first, others.set index pointer, by rw [same]; rfl, firstDenotes, rest.set new index⟩

/-- The child at `index` has cells of its own: whatever becomes of them, the other children
stay. -/
theorem LaidAll.focus : {trees : List (Rose α)} → {pointers : List Pointer} → {low high : Nat} →
    (index : Nat) → LaidAll store trees pointers low high → (inside : index < trees.length) →
    ∃ pointer first last, pointers[index]? = some pointer ∧
      Laid store trees[index] pointer first last ∧ low ≤ first ∧ last ≤ high ∧
      ∀ (other : Store α) (tree : Rose α), Denotes other tree pointer →
        (∀ address, low ≤ address → address < high → ¬ (first ≤ address ∧ address < last) →
          other[address]? = store[address]?) →
        DenotesAll other (trees.set index tree) pointers
  | _ :: _, _, low, high, 0, ⟨pointer, others, mid, same, child, rest⟩, _ => by
      refine ⟨pointer, low, mid, by rw [same]; rfl, child, le_rfl, rest.le, ?_⟩
      intro other tree new agree
      refine ⟨pointer, others, same, new, rest.denotes fun address above under => ?_⟩
      exact agree address (child.le.trans above) under (by omega)
  | _ :: _, _, low, high, index + 1, ⟨head, others, mid, same, child, rest⟩, inside => by
      obtain ⟨pointer, first, last, found, laid, above, below, keep⟩ :=
        rest.focus index (Nat.lt_of_succ_lt_succ inside)
      have order := child.le
      refine ⟨pointer, first, last, by rw [same]; exact found, laid, by omega, below, ?_⟩
      intro other tree new agree
      refine ⟨head, others, same, child.denotes fun address above under => ?_,
        keep other tree new fun address above under outside => ?_⟩
      · exact agree address above (by have := rest.le; omega) (by omega)
      · exact agree address (by omega) under outside

end Frames

/-! ## What a deep copy yields -/

section Clone

variable {store : Store α}

/-- A copy of the tree in new cells, appended to the store. -/
def Copied (store : Store α) (tree : Rose α) (outcome : Option (Pointer × Store α)) : Prop :=
  ∃ copy added, outcome = some (copy, store ++ added) ∧
    Laid (store ++ added) tree copy store.length (store ++ added).length

mutual

theorem clone_copied : {tree : Rose α} → {pointer : Pointer} → (fuel : Nat) → (store : Store α) →
    Denotes store tree pointer → tree.height ≤ fuel →
    Copied store tree (clone fuel store pointer)
  | .nil, _, fuel, store, absent, _ => by
      subst absent
      refine ⟨none, [], ?_, rfl, by simp⟩
      cases fuel <;> simp [clone]
  | .node label children, _, 0, _, _, enough => by simp [Rose.height] at enough
  | .node label children, _, fuel + 1, store, ⟨address, pointers, same, cell, below⟩, enough => by
      obtain ⟨copies, added, outcome, laid⟩ :=
        cloneAll_copied fuel store below (Nat.le_of_succ_le_succ enough)
      subst same
      refine ⟨some (store ++ added).length, added ++ [⟨label, copies⟩], ?_, ?_⟩
      · simp only [clone, cell, outcome, List.append_assoc]
      · rw [← List.append_assoc]
        refine ⟨copies, (store ++ added).length, laid.mono (keeps_append _ _), rfl, ?_, ?_⟩
        · simp
        · rw [List.length_append]
          rfl

theorem cloneAll_copied : {trees : List (Rose α)} → {pointers : List Pointer} → (fuel : Nat) →
    (store : Store α) → DenotesAll store trees pointers → Rose.heightAll trees ≤ fuel →
    ∃ copies added, cloneAll (clone fuel) store pointers = some (copies, store ++ added) ∧
      LaidAll (store ++ added) trees copies store.length (store ++ added).length
  | [], _, fuel, store, empty, _ => by
      subst empty
      exact ⟨[], [], by simp [cloneAll], rfl, by simp⟩
  | child :: rest, _, fuel, store, ⟨pointer, others, same, first, remaining⟩, enough => by
      obtain ⟨firstEnough, restEnough⟩ := max_le_iff.mp enough
      obtain ⟨copy, added, outcome, laid⟩ := clone_copied fuel store first firstEnough
      obtain ⟨copies, more, outcomes, laidRest⟩ := cloneAll_copied fuel (store ++ added)
        (remaining.mono (keeps_append _ _)) restEnough
      subst same
      refine ⟨copy :: copies, added ++ more, ?_, ?_⟩
      · simp only [cloneAll, outcome, outcomes, List.append_assoc]
      · rw [← List.append_assoc]
        exact ⟨copy, copies, _, rfl, laid.mono (keeps_append _ _), laidRest⟩

end

end Clone

/-! ## Assignments to a child -/

section Assign

variable {store : Store α} {address : Nat} {label : α} {trees : List (Rose α)}

/-- Only the cell at `address` may differ among the cells of the first store. -/
def SameBut (address : Nat) (store after : Store α) : Prop :=
  store.length ≤ after.length ∧
    ∀ other, other ≠ address → other < store.length → after[other]? = store[other]?

/-- The children of the cell denote these trees, whatever becomes of the cell itself. -/
def Holds (store : Store α) (address : Nat) (label : α) (trees : List (Rose α)) : Prop :=
  ∃ pointers, store[address]? = some ⟨label, pointers⟩ ∧
    ∀ after, SameBut address store after → DenotesAll after trees pointers

theorem SameBut.refl (address : Nat) (store : Store α) : SameBut address store store :=
  ⟨le_rfl, fun _ _ _ => rfl⟩

theorem SameBut.trans {first second third : Store α} (one : SameBut address first second)
    (two : SameBut address second third) : SameBut address first third :=
  ⟨one.1.trans two.1, fun other apart inside =>
    (two.2 other apart (inside.trans_le one.1)).trans (one.2 other apart inside)⟩

theorem Holds.denotes (holds : Holds store address label trees) :
    Denotes store (.node label trees) (some address) := by
  obtain ⟨pointers, cell, below⟩ := holds
  exact ⟨address, pointers, rfl, cell, below store (.refl address store)⟩

theorem Laid.holds {low high : Nat} (laid : Laid store (.node label trees) (some address) low high)
    (inside : high ≤ store.length) : Holds store address label trees := by
  obtain ⟨pointers, top, below, same, cell, rfl⟩ := laid
  cases same
  refine ⟨pointers, cell, fun after same => below.denotes fun other above under => ?_⟩
  exact same.2 other (by omega) (by omega)

theorem getElem?_setChild {cell : Cell α} (present : store[address]? = some cell) (index : Nat)
    (child : Pointer) :
    (setChild store address index child)[address]? =
      some { cell with children := cell.children.set index child } := by
  simp only [setChild, present]
  rw [List.getElem?_set_self (Keeps.lt_length present)]

theorem sameBut_setChild (store : Store α) (address index : Nat) (child : Pointer) :
    SameBut address store (setChild store address index child) := by
  unfold setChild
  split
  · exact .refl address store
  · refine ⟨by rw [List.length_set], fun other apart _ => ?_⟩
    rw [List.getElem?_set_ne (Ne.symm apart)]

theorem sameBut_append (address : Nat) (store added : Store α) :
    SameBut address store (store ++ added) :=
  ⟨by simp, fun _ _ inside => List.getElem?_append_left inside⟩

/-- A child is replaced by a copy of another tree. -/
theorem Holds.assign {tree : Rose α} {pointer : Pointer} {fuel : Nat}
    (holds : Holds store address label trees) (source : Denotes store tree pointer)
    (enough : tree.height ≤ fuel) (index : Nat) :
    ∃ copy added, clone fuel store pointer = some (copy, store ++ added) ∧
      Holds (setChild (store ++ added) address index copy) address label (trees.set index tree) ∧
      SameBut address store (setChild (store ++ added) address index copy) := by
  obtain ⟨pointers, cell, below⟩ := holds
  obtain ⟨copy, added, outcome, laid⟩ := clone_copied fuel store source enough
  have inside := Keeps.lt_length cell
  have grown := (sameBut_append address store added).trans
    (sameBut_setChild (store ++ added) address index copy)
  refine ⟨copy, added, outcome, ⟨pointers.set index copy, ?_, fun after same => ?_⟩, grown⟩
  · exact getElem?_setChild (keeps_append store added address _ cell) index copy
  · have children := below after (grown.trans same)
    refine children.set (laid.denotes fun other above under => ?_) index
    have old := (sameBut_setChild (store ++ added) address index copy).trans same
    exact old.2 other (by omega) under

end Assign

end GoMms.TreeStore
