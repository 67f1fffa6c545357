import GoMms.Foundation.TreeStore
import GoMms.Mms.AlternateAccess

/-!
# Alternate access in place

The writer of `server_altaccess.go` as it runs: values are cells of a store, `current` is cloned
and the clone is assigned to. The store may share cells between values. Whatever it holds, the
writer returns a pointer to the value that `applyAlternateAccessWrite` computes and leaves every
cell that was there before as it was.
-/

namespace GoMms.Mms

open Pdu TreeStore

mutual

/-- A value as a tree of its nodes; a node is labelled with the value without its elements. -/
def Value.tree : Value → Rose Value
  | .nil => .nil
  | .array elements => .node (.array []) (treeAll elements)
  | .struct elements => .node (.struct []) (treeAll elements)
  | scalar => .node scalar []

def treeAll : List Value → List (Rose Value)
  | [] => []
  | value :: rest => value.tree :: treeAll rest

end

namespace InPlace

/-- What the program sees of the value behind a pointer without following its elements. -/
def headAt (store : Store Value) (pointer : Pointer) : Value :=
  match pointer with
  | none => .nil
  | some address =>
    match store[address]? with
    | none => .nil
    | some cell => cell.label.withElements (cell.children.map fun _ => .nil)

/-- `elementsVal` of the cell at `address`. -/
def elementsAt (store : Store Value) (address : Nat) : List Pointer :=
  match store[address]? with
  | none => []
  | some cell => cell.children

/-- `val.elementsVal[index] = value.Clone()`. -/
def assignClone (fuel : Nat) (store : Store Value) (address index : Nat) (value : Pointer) :
    Option (Store Value) :=
  match clone fuel store value with
  | none => none
  | some (copy, store) => some (setChild store address index copy)

/-- The loop of `patchRange`. -/
def assignClones (fuel : Nat) (address : Nat) :
    Store Value → (index : Nat) → List Pointer → Option (Store Value)
  | store, _, [] => some store
  | store, index, value :: rest =>
    match assignClone fuel store address index value with
    | none => none
    | some store => assignClones fuel address store (index + 1) rest

def patchRange (fuel : Nat) (store : Store Value) (address : Nat) (start count : Int64)
    (remaining : List AccessSelectorWire) (writeVal : Pointer) : Option (Bool × Store Value) :=
  if (headAt store (some address)).type ≠ some .array then some (false, store)
  else if outsideRange start count (elementsAt store address).length then some (false, store)
  else if remaining ≠ [] then some (false, store)
  else
    match writeVal with
    | none => some (false, store)
    | some source =>
      if (headAt store writeVal).type ≠ some .array then some (false, store)
      else if ((elementsAt store source).length : Int) ≠ count.toInt then some (false, store)
      else
        match assignClones fuel address store start.toInt.toNat (elementsAt store source) with
        | none => none
        | some store => some (true, store)

/-- The tail of `patchComponent` and `patchIndex`. -/
def patchElement (fuel : Nat) (store : Store Value) (address : Nat)
    (target : Option (Nat × Option TypeSpec)) (remaining : List AccessSelectorWire)
    (writeVal : Pointer)
    (descend : Pointer → Option TypeSpec → Option (Bool × Store Value)) :
    Option (Bool × Store Value) :=
  match target with
  | none => some (false, store)
  | some (idx, childTs) =>
    if remaining = [] then
      if admits childTs (headAt store writeVal) then
        match assignClone fuel store address idx writeVal with
        | none => none
        | some store => some (true, store)
      else some (false, store)
    else descend ((elementsAt store address).getD idx none) childTs

/-- `patchValue`: whether the path is valid, and the store after it. -/
def patchValue (fuel : Nat) (store : Store Value) (val : Pointer) (ts : Option TypeSpec)
    (selectors : List AccessSelectorWire) (writeVal : Pointer) : Option (Bool × Store Value) :=
  match selectors, val with
  | [], _ => some (false, store)
  | _ :: _, none => some (false, store)
  | sel :: remaining, some address =>
    let type := (headAt store val).type
    let length := (elementsAt store address).length
    if sel.component ≠ [] then
      patchElement fuel store address (componentTarget type length ts sel.component) remaining
        writeVal fun child childTs => patchValue fuel store child childTs remaining writeVal
    else if sel.hasIndex then
      patchElement fuel store address (indexTarget type length ts sel.index) remaining
        writeVal fun child childTs => patchValue fuel store child childTs remaining writeVal
    else
      match sel.indexRange with
      | some range =>
        patchRange fuel store address range.lowIndex range.numberOfElements remaining writeVal
      | none => some (false, store)

/-- `applyAlternateAccessWrite`: the returned pointer and the store after the call. `fuel` bounds
the levels that can be cloned. -/
def applyAlternateAccessWrite (fuel : Nat) (store : Store Value) (current : Pointer)
    (ts : Option TypeSpec) (selectors : List AccessSelectorWire) (writeVal : Pointer) :
    Option (Pointer × Store Value) :=
  if selectors = [] then some (writeVal, store)
  else
    match clone fuel store current with
    | none => none
    | some (patched, store) =>
      match patchValue fuel store patched ts selectors writeVal with
      | none => none
      | some (false, store) => some (none, store)
      | some (true, store) => some (patched, store)

/-! ## Values and their trees -/

section Trees

variable {store : Store Value} {val : Value} {pointer : Pointer} {address : Nat}

theorem treeAll_eq (elements : List Value) : treeAll elements = elements.map Value.tree := by
  induction elements with
  | nil => rfl
  | cons value rest ih => rw [treeAll, ih, List.map_cons]

theorem tree_eq (present : val ≠ .nil) :
    val.tree = .node (val.withElements []) (val.elements.map Value.tree) := by
  cases val with
  | nil => exact (present rfl).elim
  | array | struct => rw [Value.tree, treeAll_eq]; rfl
  | _ => rfl

theorem eq_nil_of_denotes_none (denotes : Denotes store val.tree none) : val = .nil := by
  by_contra present
  rw [tree_eq present] at denotes
  obtain ⟨_, _, absent, -⟩ := denotes
  cases absent

theorem ne_nil_of_denotes_some (denotes : Denotes store val.tree (some address)) : val ≠ .nil := by
  rintro rfl
  cases denotes

theorem denotes_some (denotes : Denotes store val.tree (some address)) :
    ∃ pointers, store[address]? = some ⟨val.withElements [], pointers⟩ ∧
      DenotesAll store (val.elements.map Value.tree) pointers := by
  rw [tree_eq (ne_nil_of_denotes_some denotes)] at denotes
  obtain ⟨_, pointers, same, cell, below⟩ := denotes
  cases same
  exact ⟨pointers, cell, below⟩

theorem headAt_eq (denotes : Denotes store val.tree pointer) : headAt store pointer = val.head := by
  cases pointer with
  | none => rw [eq_nil_of_denotes_none denotes]; rfl
  | some address =>
    obtain ⟨pointers, cell, below⟩ := denotes_some denotes
    have length : pointers.length = val.elements.length := by
      rw [below.length_eq, List.length_map]
    simp only [headAt, cell, Value.head, Value.withElements_withElements]
    rw [List.map_const', List.map_const', length]

theorem length_elementsAt (denotes : Denotes store val.tree (some address)) :
    (elementsAt store address).length = val.elements.length := by
  obtain ⟨pointers, cell, below⟩ := denotes_some denotes
  simp only [elementsAt, cell, below.length_eq, List.length_map]

@[simp] theorem type_head (value : Value) : value.head.type = value.type :=
  Value.type_withElements value _

theorem admits_head (childTs : Option TypeSpec) (value : Value) :
    admits childTs value.head = admits childTs value := by
  cases childTs with
  | none => rfl
  | some spec =>
    simp only [admits, TypeSpec.shallowCompatible, type_head]
    cases value <;> simp [Value.head, Value.withElements, Value.elements]

end Trees

/-! ## The program computes the patched value -/

section Refinement

variable {store : Store Value} {val writeVal : Value} {pointer source : Pointer}
  {address fuel low high : Nat} {ts : Option TypeSpec} {sel : AccessSelectorWire}
  {remaining selectors : List AccessSelectorWire}

/-- Of the cells of the first store only those from `low` to below `high` may differ. -/
def Elsewhere (low high : Nat) (store after : Store Value) : Prop :=
  ∀ address, address < store.length → ¬ (low ≤ address ∧ address < high) →
    after[address]? = store[address]?

/-- The cells of the value to be written are all below `low`. -/
def SourceBelow (low : Nat) (store : Store Value) (writeVal : Value) (source : Pointer) : Prop :=
  Denotes (store.take low) writeVal.tree source

/-- The program reports whether there is a patched value, and then holds it at `pointer`. -/
def Yields (low high : Nat) (store : Store Value) (pointer : Pointer)
    (outcome : Option (Bool × Store Value)) : Option Value → Prop
  | none => outcome = some (false, store)
  | some patched =>
    ∃ after, outcome = some (true, after) ∧ Denotes after patched.tree pointer ∧
      Elsewhere low high store after

theorem keeps_take {after : Store Value}
    (same : ∀ address, address < low → after[address]? = store[address]?) :
    Keeps (store.take low) after := by
  intro address cell present
  rw [List.getElem?_take] at present
  split at present
  · next under => rw [same address under, present]
  · cases present

theorem take_keeps (low : Nat) (store : Store Value) : Keeps (store.take low) store :=
  keeps_take fun _ _ => rfl

theorem SourceBelow.denotes (below : SourceBelow low store writeVal source) :
    Denotes store writeVal.tree source :=
  Denotes.mono (take_keeps low store) below

theorem SourceBelow.mono {higher : Nat} (below : SourceBelow low store writeVal source)
    (le : low ≤ higher) : SourceBelow higher store writeVal source := by
  refine Denotes.mono (keeps_take fun address under => ?_) below
  rw [List.getElem?_take, if_pos (under.trans_le le)]

/-- Assigning clones to a range of elements. -/
theorem assignClones_holds {label : Value} {news elements : List Value} {pointers : List Pointer}
    {start : Nat} (holds : Holds store address label (elements.map Value.tree))
    (sources : ∀ after, SameBut address store after →
      DenotesAll after (news.map Value.tree) pointers)
    (enough : Rose.heightAll (news.map Value.tree) ≤ fuel) :
    ∃ after, assignClones fuel address store start pointers = some after ∧
      Holds after address label ((setElements elements start news).map Value.tree) ∧
      SameBut address store after := by
  induction news generalizing store elements pointers start with
  | nil =>
    have empty : pointers = [] := sources store (.refl address store)
    subst empty
    exact ⟨store, rfl, holds, .refl address store⟩
  | cons value rest ih =>
    obtain ⟨pointer, others, rfl, first, -⟩ := sources store (.refl address store)
    obtain ⟨firstEnough, restEnough⟩ := max_le_iff.mp enough
    obtain ⟨copy, added, outcome, now, same⟩ := holds.assign first firstEnough start
    rw [← List.map_set] at now
    have later : ∀ after, SameBut address (setChild (store ++ added) address start copy) after →
        DenotesAll after (rest.map Value.tree) others := by
      intro after again
      obtain ⟨_, _, split, -, remaining⟩ := sources after (same.trans again)
      cases split
      exact remaining
    obtain ⟨after, finished, done, sameLater⟩ := ih now later restEnough
    refine ⟨after, ?_, done, same.trans sameLater⟩
    simp only [assignClones, assignClone, outcome, finished]

/-- Assignments to the root of a laid tree stay within its cells. -/
theorem elsewhere_of_sameBut {after : Store Value} (low : Nat) (same : SameBut address store after)
    (order : low ≤ address) : Elsewhere low (address + 1) store after :=
  fun other inside outside => same.2 other (by omega) inside

theorem tree_withElements (composite : val.IsComposite) (elements : List Value) :
    (val.withElements elements).tree = .node (val.withElements []) (elements.map Value.tree) := by
  have present : val.withElements elements ≠ .nil :=
    Value.IsComposite.ne_nil (by rwa [Value.IsComposite, Value.type_withElements])
  rw [tree_eq present, Value.withElements_withElements, composite.elements_withElements]

/-- The cells of a laid composite: its own comes last. -/
theorem laid_composite (composite : val.IsComposite)
    (laid : Laid store val.tree (some address) low high) :
    high = address + 1 ∧ low ≤ address ∧
      LaidAll store (val.elements.map Value.tree) (elementsAt store address) low address ∧
      store[address]? = some ⟨val.withElements [], elementsAt store address⟩ := by
  rw [tree_eq composite.ne_nil] at laid
  obtain ⟨pointers, top, below, same, cell, rfl⟩ := laid
  cases same
  have elements : elementsAt store address = pointers := by simp only [elementsAt, cell]
  exact ⟨rfl, below.le, by rwa [elements], by rwa [elements]⟩

/-- An element is replaced by a clone. -/
theorem assignClone_yields {idx : Nat} (composite : val.IsComposite)
    (laid : Laid store val.tree (some address) low high) (inside : high ≤ store.length)
    (below : SourceBelow low store writeVal source) (enough : writeVal.tree.height ≤ fuel) :
    ∃ after, assignClone fuel store address idx source = some after ∧
      Denotes after (val.withElements (val.elements.set idx writeVal)).tree (some address) ∧
      Elsewhere low high store after := by
  obtain ⟨rfl, order, -⟩ := laid_composite composite laid
  rw [tree_eq composite.ne_nil] at laid
  obtain ⟨copy, added, outcome, holds, same⟩ := (laid.holds inside).assign below.denotes enough idx
  rw [← List.map_set] at holds
  refine ⟨_, ?_, ?_, elsewhere_of_sameBut low same order⟩
  · simp only [assignClone, outcome]
  · rw [tree_withElements composite]
    exact holds.denotes

/-- A patch below an element is a patch of the whole. -/
theorem descend_yields {idx : Nat} {child : Option Value} {outcome : Option (Bool × Store Value)}
    (composite : val.IsComposite) (laid : Laid store val.tree (some address) low high)
    (inside : high ≤ store.length) (index : idx < val.elements.length)
    (nested : ∀ pointer first last,
      Laid store (val.elements.getD idx .nil).tree pointer first last →
      low ≤ first → last ≤ high → pointer = (elementsAt store address).getD idx none →
      Yields first last store pointer outcome child) :
    Yields low high store (some address) outcome
      (child.map fun child => val.withElements (val.elements.set idx child)) := by
  obtain ⟨rfl, order, below, cell⟩ := laid_composite composite laid
  obtain ⟨pointer, first, last, found, childLaid, above, under, keep⟩ :=
    below.focus idx (by rwa [List.length_map])
  have same : pointer = (elementsAt store address).getD idx none := by simp [found]
  have element : val.elements[idx] = val.elements.getD idx .nil := by simp [index]
  rw [List.getElem_map, element] at childLaid
  have yields := nested pointer first last childLaid above (by omega) same
  cases child with
  | none => exact yields
  | some patched =>
    obtain ⟨after, ran, denotes, elsewhere⟩ := yields
    refine ⟨after, ran, ?_, fun other bound outside => elsewhere other bound (by omega)⟩
    have children := keep after patched.tree denotes fun other lower upper outside =>
      elsewhere other (by omega) outside
    rw [← List.map_set] at children
    rw [tree_withElements composite]
    refine ⟨address, elementsAt store address, rfl, ?_, children⟩
    rw [elsewhere address (by omega) (by omega), cell]

theorem patchElement_yields {target : Option (Nat × Option TypeSpec)}
    {descend : Pointer → Option TypeSpec → Option (Bool × Store Value)}
    {descendTree : Value → Option TypeSpec → Option Value}
    (laid : Laid store val.tree (some address) low high) (inside : high ≤ store.length)
    (below : SourceBelow low store writeVal source) (enough : writeVal.tree.height ≤ fuel)
    (targets : ∀ idx childTs, target = some (idx, childTs) →
      val.IsComposite ∧ idx < val.elements.length)
    (nested : ∀ child childTs pointer first last, Laid store child.tree pointer first last →
      low ≤ first → last ≤ high →
      Yields first last store pointer (descend pointer childTs) (descendTree child childTs)) :
    Yields low high store (some address)
      (patchElement fuel store address target remaining source descend)
      (Mms.patchElement val target remaining writeVal descendTree) := by
  rcases target with _ | ⟨idx, childTs⟩
  · rfl
  · obtain ⟨composite, index⟩ := targets idx childTs rfl
    by_cases last : remaining = []
    · simp only [patchElement, Mms.patchElement, if_pos last, headAt_eq below.denotes, admits_head]
      split
      · obtain ⟨after, ran, denotes, elsewhere⟩ :=
          assignClone_yields composite laid inside below enough
        exact ⟨after, by rw [ran], denotes, elsewhere⟩
      · rfl
    · simp only [patchElement, Mms.patchElement, if_neg last]
      have yields : Yields low high store (some address)
          (descend ((elementsAt store address).getD idx none) childTs)
          ((descendTree (val.elements.getD idx .nil) childTs).map
            fun child => val.withElements (val.elements.set idx child)) := by
        refine descend_yields composite laid inside index ?_
        rintro pointer first last childLaid above under rfl
        exact nested _ childTs _ first last childLaid above under
      cases tree : descendTree (val.elements.getD idx .nil) childTs with
      | none => rwa [tree] at yields
      | some child => rwa [tree] at yields

/-- The elements of the value to be written stay what they are while a later cell is assigned
to. -/
theorem SourceBelow.elements {first : Nat} (below : SourceBelow low store writeVal (some first))
    (order : low ≤ address) (inside : address < store.length) (after : Store Value)
    (same : SameBut address store after) :
    DenotesAll after (writeVal.elements.map Value.tree) (elementsAt store first) := by
  have keeps : Keeps (store.take low) after :=
    keeps_take fun other under => same.2 other (by omega) (by omega)
  obtain ⟨pointers, cell, children⟩ := denotes_some below
  have stored := take_keeps low store first _ cell
  simp only [elementsAt, stored]
  exact children.mono keeps

theorem patchRange_yields {start count : Int64}
    (laid : Laid store val.tree (some address) low high) (inside : high ≤ store.length)
    (below : SourceBelow low store writeVal source) (enough : writeVal.tree.height ≤ fuel) :
    Yields low high store (some address)
      (patchRange fuel store address start count remaining source)
      (Mms.patchRange val start count remaining writeVal) := by
  have denotes : Denotes store val.tree (some address) := laid.denotes fun _ _ _ => rfl
  simp only [patchRange, headAt_eq denotes, type_head, length_elementsAt denotes]
  cases val with
  | array elems =>
    have composite : (Value.array elems).IsComposite := .inl rfl
    obtain ⟨rfl, order, -⟩ := laid_composite composite laid
    have isArray : (Value.array elems).type = some .array := rfl
    simp only [isArray, ne_eq, not_true_eq_false, if_false, Mms.patchRange, Value.elements]
    by_cases outside : outsideRange start count elems.length = true
    · simp only [outside, if_true]
      rfl
    by_cases more : ¬ remaining = []
    · simp only [outside, more]
      rfl
    simp only [outside, more, if_false]
    cases source with
    | none =>
      rw [eq_nil_of_denotes_none below.denotes]
      rfl
    | some first =>
      simp only [headAt_eq below.denotes, type_head, length_elementsAt below.denotes]
      cases writeVal with
      | array news =>
        have sourceArray : (Value.array news).type = some .array := rfl
        simp only [sourceArray, not_true_eq_false, if_false, Value.elements]
        by_cases different : ¬ (news.length : Int) = count.toInt
        · simp only [different]
          rfl
        simp only [different, if_false]
        rw [tree_eq composite.ne_nil] at laid
        have short : Rose.heightAll (news.map Value.tree) ≤ fuel := by
          rw [tree_eq (by simp)] at enough
          exact (Nat.le_succ _).trans enough
        obtain ⟨after, ran, holds, same⟩ := assignClones_holds (laid.holds inside)
          (below.elements order (by omega)) short
        rw [ran]
        refine ⟨after, rfl, ?_, elsewhere_of_sameBut low same order⟩
        rw [tree_eq (by simp)]
        exact holds.denotes
      | _ => rfl
  | _ => rfl

theorem patchValue_nil (ts : Option TypeSpec) (selectors : List AccessSelectorWire)
    (writeVal : Value) : Mms.patchValue .nil ts selectors writeVal = none := by
  cases selectors with
  | nil => rfl
  | cons sel remaining =>
    simp only [Mms.patchValue, Value.type, componentTarget, indexTarget, Mms.patchElement]
    split
    · rfl
    · split
      · rfl
      · split <;> rfl

theorem patchValue_yields (ts : Option TypeSpec) (selectors : List AccessSelectorWire)
    (laid : Laid store val.tree pointer low high)
    (inside : high ≤ store.length) (below : SourceBelow low store writeVal source)
    (enough : writeVal.tree.height ≤ fuel) :
    Yields low high store pointer (patchValue fuel store pointer ts selectors source)
      (Mms.patchValue val ts selectors writeVal) := by
  induction selectors generalizing val pointer ts low high with
  | nil => rfl
  | cons sel remaining ih =>
    have denotes : Denotes store val.tree pointer := laid.denotes fun _ _ _ => rfl
    cases pointer with
    | none =>
      rw [eq_nil_of_denotes_none denotes, patchValue_nil]
      rfl
    | some address =>
      have nested : ∀ (child : Value) (childTs : Option TypeSpec) (pointer : Pointer)
          (first last : Nat), Laid store child.tree pointer first last → low ≤ first →
          last ≤ high → Yields first last store pointer
            (patchValue fuel store pointer childTs remaining source)
            (Mms.patchValue child childTs remaining writeVal) :=
        fun child childTs pointer first last childLaid above under =>
          ih childTs childLaid (under.trans inside) (below.mono above)
      simp only [patchValue, Mms.patchValue, headAt_eq denotes, type_head,
        length_elementsAt denotes]
      split
      · rename_i named
        refine patchElement_yields laid inside below enough (fun idx childTs found => ?_) nested
        exact elementTarget_inside ((if_pos named).trans found)
      rename_i unnamed
      split
      · rename_i indexed
        refine patchElement_yields laid inside below enough (fun idx childTs found => ?_) nested
        exact elementTarget_inside (((if_neg unnamed).trans (if_pos indexed)).trans found)
      · cases sel.indexRange with
        | none => rfl
        | some range => exact patchRange_yields laid inside below enough

/-- From enough fuel on, the program returns the value that the model computes, whatever cells
the current value and the written one share, and keeps the store it was given. -/
theorem applyAlternateAccessWrite_denotes {current : Pointer}
    (denotes : Denotes store val.tree current) (source_denotes : Denotes store writeVal.tree source)
    (currentEnough : val.tree.height ≤ fuel) (sourceEnough : writeVal.tree.height ≤ fuel) :
    ∃ result after,
      applyAlternateAccessWrite fuel store current ts selectors source = some (result, after) ∧
      Denotes after (Mms.applyAlternateAccessWrite val ts selectors writeVal).tree result ∧
      Keeps store after := by
  by_cases whole : selectors = []
  · refine ⟨source, store, if_pos whole, ?_, fun _ _ present => present⟩
    rwa [Mms.applyAlternateAccessWrite, if_pos whole]
  · obtain ⟨patched, added, cloned, laid⟩ := clone_copied fuel store denotes currentEnough
    have below : SourceBelow store.length (store ++ added) writeVal source := by
      rwa [SourceBelow, List.take_left]
    have yields := patchValue_yields ts selectors laid le_rfl below sourceEnough
    simp only [applyAlternateAccessWrite, Mms.applyAlternateAccessWrite, if_neg whole, cloned]
    cases tree : Mms.patchValue val ts selectors writeVal with
    | none =>
      rw [tree] at yields
      exact ⟨none, store ++ added, by rw [yields], rfl, keeps_append store added⟩
    | some value =>
      rw [tree] at yields
      obtain ⟨after, ran, holds, elsewhere⟩ := yields
      refine ⟨patched, after, by rw [ran], holds, fun address cell present => ?_⟩
      have inside := Keeps.lt_length present
      rw [elsewhere address (by rw [List.length_append]; omega) (by omega)]
      exact keeps_append store added address cell present

end Refinement

end InPlace

/-! ## Alternate access is a lens -/

section Lens

variable {val writeVal : Value} {ts : Option TypeSpec} {selectors : List AccessSelectorWire}

/-- A write through a chain that succeeds has patched the value. -/
theorem patches_of_write (chain : selectors ≠ [])
    (written : applyAlternateAccessWrite val ts selectors writeVal ≠ .nil) :
    Patches writeVal val ts selectors (applyAlternateAccessWrite val ts selectors writeVal) := by
  rw [applyAlternateAccessWrite, if_neg chain] at written ⊢
  cases outcome : patchValue val ts selectors writeVal with
  | none => exact (written (by rw [outcome]; rfl)).elim
  | some patched => exact patches_of_patchValue outcome

theorem Patches.write_eq {patched : Value} (patches : Patches writeVal val ts selectors patched)
    (chain : selectors ≠ []) : applyAlternateAccessWrite val ts selectors writeVal = patched := by
  rw [applyAlternateAccessWrite, if_neg chain, patches.patchValue_eq]
  rfl

/-- Put-get, frame, put-put and get-put of alternate access, for every value, type and chain of
Unsigned32 selectors. The program works on a store in which the values may share cells: it
returns the same value and changes no cell, so `val` stays what it was. -/
theorem alternateAccess_lens (val : Value) (ts : Option TypeSpec)
    (selectors : List AccessSelectorWire) (bounded : ∀ sel ∈ selectors, InUnsigned32 sel) :
    (∀ writeVal, writeVal ≠ .nil → applyAlternateAccessWrite val ts selectors writeVal ≠ .nil →
      (applyAlternateAccessRead (applyAlternateAccessWrite val ts selectors writeVal) ts
        selectors).equal writeVal = true ∧
      SameOutside (writtenPaths val ts selectors)
        (applyAlternateAccessWrite val ts selectors writeVal) val ∧
      ∀ later, later ≠ .nil →
        applyAlternateAccessWrite (applyAlternateAccessWrite val ts selectors writeVal) ts
          selectors later ≠ .nil →
        applyAlternateAccessWrite (applyAlternateAccessWrite val ts selectors writeVal) ts
          selectors later = applyAlternateAccessWrite val ts selectors later) ∧
    (applyAlternateAccessRead val ts selectors ≠ .nil →
      applyAlternateAccessWrite val ts selectors (applyAlternateAccessRead val ts selectors) ≠
        .nil →
      (applyAlternateAccessWrite val ts selectors
        (applyAlternateAccessRead val ts selectors)).equal val = true) ∧
    ∀ writeVal store current source, Denotes store val.tree current →
      Denotes store writeVal.tree source → ∃ enough, ∀ fuel, enough ≤ fuel → ∃ result after,
        InPlace.applyAlternateAccessWrite fuel store current ts selectors source =
          some (result, after) ∧
        Denotes after (applyAlternateAccessWrite val ts selectors writeVal).tree result ∧
        Keeps store after ∧ Denotes after val.tree current := by
  refine ⟨fun writeVal present written => ?_, fun readable written => ?_,
    fun writeVal store current source denotes sourceDenotes => ?_⟩
  · by_cases whole : selectors = []
    · subst whole
      refine ⟨?_, fun path outside => ?_, fun later _ _ => rfl⟩
      · simp [applyAlternateAccessWrite, applyAlternateAccessRead]
      · exact (outside [] (List.mem_singleton.mpr rfl) List.nil_prefix).elim
    · have patches := patches_of_write whole written
      refine ⟨?_, patches.sameOutside bounded, fun later _ again => ?_⟩
      · rw [patches.read_eq bounded]
        exact writeVal.equal_self
      · have twice := patches.again bounded (patches_of_write whole again)
        exact (twice.write_eq whole).symm
  · by_cases whole : selectors = []
    · subst whole
      simp [applyAlternateAccessWrite, applyAlternateAccessRead]
    · rw [(patches_of_write whole written).eq_of_read bounded rfl]
      exact val.equal_self
  · refine ⟨max val.tree.height writeVal.tree.height, fun fuel enough => ?_⟩
    obtain ⟨currentEnough, sourceEnough⟩ := max_le_iff.mp enough
    obtain ⟨result, after, ran, holds, keeps⟩ :=
      InPlace.applyAlternateAccessWrite_denotes denotes sourceDenotes currentEnough sourceEnough
    exact ⟨result, after, ran, holds, keeps, denotes.mono keeps⟩

theorem alternateAccess_lens_nestedRange :
    let rows : Value := .array [.array [.integer 1, .integer 2, .integer 3], .boolean true]
    let chain : List AccessSelectorWire :=
      [{ component := [], index := 0, hasIndex := true, indexRange := none },
        { component := [], index := 0, hasIndex := false, indexRange := some ⟨1, 2⟩ }]
    let patched := applyAlternateAccessWrite rows none chain (.array [.integer 8, .integer 9])
    patched = .array [.array [.integer 1, .integer 8, .integer 9], .boolean true] ∧
      (applyAlternateAccessRead patched none chain).equal (.array [.integer 8, .integer 9]) = true ∧
      SameOutside [[0, 1], [0, 2]] patched rows := by
  intro rows chain patched
  have bounded : ∀ sel ∈ chain, InUnsigned32 sel := by
    simp only [chain, List.forall_mem_cons]
    refine ⟨⟨by decide, fun range none => by cases none⟩, ⟨by decide, ?_⟩, by simp⟩
    rintro range ⟨⟩
    decide
  have written : patched = .array [.array [.integer 1, .integer 8, .integer 9], .boolean true] :=
    rfl
  have succeeded : patched ≠ .nil := by simp [written]
  obtain ⟨putGet, frame, -⟩ := (alternateAccess_lens rows none chain bounded).1
    (.array [.integer 8, .integer 9]) (by simp) succeeded
  exact ⟨written, putGet, frame⟩

end Lens

end GoMms.Mms
