import GoMms.Mms.AlternateAccess
import GoMms.Server.Registration

/-!
# Selection by values and by types

Three programs follow a chain of selectors: the server's reader of alternate access down a value,
`TypeSpec.Resolve` down a type, and the client's `Value.Get` down a value without a type. What the
reader finds in a value of a type is of the type that `Resolve` finds, although the reader forgets
the type behind a range. Where no names are needed, the reader and `Get` find the same element.
-/

namespace GoMms.Mms

open Pdu Server

/-! ## Selectors and types -/

/-- One selector in `variableSpecToWire`. -/
def accessSelectorToWire (sel : AccessSelector) : AccessSelectorWire :=
  { component := sel.component
    hasIndex := sel.index.isSome
    index := sel.index.getD 0
    indexRange := sel.indexRange.map fun range => ⟨range.start, range.count⟩ }

namespace TypeSpec

def childByName (ts : TypeSpec) (name : Octets) : Option TypeSpec :=
  if ts.type ≠ .struct then none
  else (ts.elements.find? fun element => element.1 == name).map Prod.snd

def childByIndex (ts : TypeSpec) (index : Int64) : Option TypeSpec :=
  match ts.type with
  | .struct =>
    if index < 0 ∨ index.toInt ≥ ts.elements.length then none
    else ts.elements[index.toInt.toNat]?.map Prod.snd
  | .array => if index < 0 ∨ index ≥ ts.count then none else ts.element
  | _ => none

section Resolve

-- `quote` is `fmt`'s `%q`
variable (quote : Octets → String)

/-- The text in front of what is wrong with selector `i`. -/
def atSelector (i : Nat) (text : String) : String :=
  "selector [" ++ toString i ++ "]: " ++ text

/-- The body of the loop of `Resolve`, for selector `i`. -/
def resolveSelector (cur : TypeSpec) (i : Nat) (sel : AccessSelector) : Except String TypeSpec :=
  if sel.component ≠ [] then
    match cur.childByName sel.component with
    | none => .error (atSelector i ("component " ++ quote sel.component ++ " not found in " ++
        cur.type.string))
    | some child => .ok child
  else
    match sel.index, sel.indexRange with
    | some index, _ =>
      match cur.childByIndex index with
      | none => .error (atSelector i ("index " ++ toString index ++ " out of range for " ++
          cur.type.string))
      | some child => .ok child
    | none, some range =>
      if cur.type ≠ .array then
        .error (atSelector i ("index range on non-array type " ++ cur.type.string))
      else if cur.element.isNone then .error (atSelector i "array has no element type")
      else .ok { type := .array, count := range.count, element := cur.element }
    | none, none => .error (atSelector i "no field set")

/-- The loop of `Resolve` from selector `i` on. A type that a selector leads to is not nil. -/
def resolveFrom (cur : TypeSpec) : (i : Nat) → List AccessSelector → Except String TypeSpec
  | _, [] => .ok cur
  | i, sel :: selectors =>
    match cur.resolveSelector quote i sel with
    | .error text => .error text
    | .ok next => next.resolveFrom (i + 1) selectors

/-- `Resolve`, with a receiver that may be nil. -/
def resolve : Option TypeSpec → List AccessSelector → Except String (Option TypeSpec)
  | none, [] => .ok none
  | none, _ :: _ => .error "nil TypeSpec at selector [0]"
  | some ts, selectors =>
    match ts.resolveFrom quote 0 selectors with
    | .error text => .error text
    | .ok selected => .ok (some selected)

end Resolve

end TypeSpec

/-! ## Conformance -/

mutual

/-- The types agree; a structure has as many elements as its type and each conforms; an array has
an element type, exactly as many elements as its type says and each conforms. -/
def Value.conforms : Value → TypeSpec → Bool
  | .struct elements, ts => ts.type == .struct && conformsEach elements ts.elements
  | .array elements, ts =>
    ts.type == .array && (elements.length : Int) == ts.count.toInt &&
      match ts.element with
      | none => false
      | some element => conformsAll elements element
  | value, ts => value.type == some ts.type

def conformsEach : List Value → List (Octets × TypeSpec) → Bool
  | [], [] => true
  | value :: values, (_, ts) :: elements => value.conforms ts && conformsEach values elements
  | _, _ => false

def conformsAll : List Value → TypeSpec → Bool
  | [], _ => true
  | value :: values, ts => value.conforms ts && conformsAll values ts

end

section Conformance

variable {value : Value} {values : List Value} {ts : TypeSpec}

theorem conformsAll_iff :
    conformsAll values ts = true ↔ ∀ value ∈ values, value.conforms ts = true := by
  induction values with
  | nil => simp [conformsAll]
  | cons value values ih => simp [conformsAll, ih]

theorem conformsEach_length {elements : List (Octets × TypeSpec)}
    (conforms : conformsEach values elements = true) : values.length = elements.length := by
  induction values generalizing elements with
  | nil =>
    cases elements with
    | nil => rfl
    | cons element elements => cases conforms
  | cons value values ih =>
    cases elements with
    | nil => cases conforms
    | cons element elements =>
      simp only [conformsEach, Bool.and_eq_true] at conforms
      rw [List.length_cons, List.length_cons, ih conforms.2]

variable {index : Nat} {elements : List Value}

theorem conformsEach_getElem {elements : List (Octets × TypeSpec)}
    (conforms : conformsEach values elements = true) (present : values[index]? = some value) :
    ∃ name ts, elements[index]? = some (name, ts) ∧ value.conforms ts = true := by
  induction values generalizing elements index with
  | nil => cases present
  | cons first values ih =>
    cases elements with
    | nil => cases conforms
    | cons element elements =>
      simp only [conformsEach, Bool.and_eq_true] at conforms
      cases index with
      | zero =>
        cases present
        exact ⟨element.1, element.2, rfl, conforms.1⟩
      | succ index =>
        simp only [List.getElem?_cons_succ] at present ⊢
        exact ih conforms.2 present

theorem Value.conforms_array (conforms : (Value.array elements).conforms ts = true) :
    ts.type = .array ∧ (elements.length : Int) = ts.count.toInt ∧ ∃ element,
      ts.element = some element ∧ ∀ value ∈ elements, value.conforms element = true := by
  simp only [Value.conforms, Bool.and_eq_true, beq_iff_eq] at conforms
  obtain ⟨⟨type, count⟩, each⟩ := conforms
  cases typed : ts.element with
  | none =>
    rw [typed] at each
    cases each
  | some element =>
    rw [typed] at each
    exact ⟨type, count, element, rfl, conformsAll_iff.mp each⟩

theorem Value.conforms_struct (conforms : (Value.struct elements).conforms ts = true) :
    ts.type = .struct ∧ conformsEach elements ts.elements = true := by
  simpa only [Value.conforms, Bool.and_eq_true, beq_iff_eq] using conforms

end Conformance

/-! ## Reading is type-sound -/

section Sound

variable {quote : Octets → String} {val : Value} {cur : TypeSpec} {ts : Option TypeSpec}
  {sel : AccessSelector}

/-- What the reader knows of the type: nothing, or what it is. -/
def Knows (ts : Option TypeSpec) (cur : TypeSpec) : Prop := ts = none ∨ ts = some cur

theorem selectComponent_struct (elements : List Value) (ts : Option TypeSpec) (name : Octets) :
    selectComponent (.struct elements) ts name =
      (resolveComponentIndex ts name).elim (.nil, none) fun idx =>
        elements[idx]?.elim (.nil, none) fun child => (child, structureElementType ts idx) := by
  have structured : ¬(Value.struct elements).type ≠ some .struct := not_not_intro rfl
  have below : (Value.struct elements).elements = elements := rfl
  rw [selectComponent, if_neg structured, below]
  cases resolveComponentIndex ts name with
  | none => rfl
  | some idx =>
    dsimp only [Option.elim_some]
    cases elements[idx]? with
    | none => rfl
    | some child => rfl

theorem selectComponent_sound {name : Octets} (conforms : val.conforms cur = true)
    (knows : Knows ts cur) (present : (selectComponent val ts name).1 ≠ .nil) :
    ∃ next, cur.childByName name = some next ∧
      (selectComponent val ts name).1.conforms next = true ∧
      Knows (selectComponent val ts name).2 next := by
  -- without a type the reader resolves no name
  rcases knows with rfl | rfl
  · unfold selectComponent at present
    split_ifs at present <;> exact absurd rfl present
  · cases val with
    | struct elements =>
      obtain ⟨type, each⟩ := Value.conforms_struct conforms
      have structured : ¬cur.type ≠ .struct := not_not_intro type
      have resolved : resolveComponentIndex (some cur) name =
          cur.elements.findIdx? fun element => element.1 == name := if_neg structured
      rw [selectComponent_struct, resolved] at present ⊢
      cases found : cur.elements.findIdx? fun element => element.1 == name with
      | none =>
        rw [found] at present
        exact absurd rfl present
      | some idx =>
        rw [found, Option.elim_some] at present
        rw [Option.elim_some]
        cases child : elements[idx]? with
        | none =>
          rw [child] at present
          exact absurd rfl present
        | some value =>
          obtain ⟨label, next, typed, conforming⟩ := conformsEach_getElem each child
          refine ⟨next, ?_, conforming, .inr ?_⟩
          · rw [TypeSpec.childByName, if_neg structured, List.find?_eq_getElem?_findIdx,
              (List.findIdx?_eq_some_iff_findIdx_eq.mp found).2, typed]
            rfl
          · simp only [Option.elim_some, structureElementType, typed, Option.map_some]
    | _ => exact absurd rfl present

variable {index : Int64}

theorem selectIndex_found (present : (selectIndex val ts index).1 ≠ .nil) :
    ∃ elems child, elems[index.toInt.toNat]? = some child ∧ ¬index < 0 ∧
      (val = .array elems ∧ selectIndex val ts index = (child, ts.bind TypeSpec.element) ∨
        val = .struct elems ∧
          selectIndex val ts index = (child, structureElementType ts index.toInt.toNat)) := by
  cases val with
  | array elems | struct elems =>
    simp only [selectIndex] at present ⊢
    split_ifs at present ⊢ with negative
    · exact absurd rfl present
    · cases found : elems[index.toInt.toNat]? with
      | none =>
        rw [found] at present
        exact absurd rfl present
      | some child => exact ⟨elems, child, found, negative, by simp⟩
  | _ => exact absurd rfl present

theorem selectIndex_sound (conforms : val.conforms cur = true) (knows : Knows ts cur)
    (present : (selectIndex val ts index).1 ≠ .nil) :
    ∃ next, cur.childByIndex index = some next ∧
      (selectIndex val ts index).1.conforms next = true ∧
      Knows (selectIndex val ts index).2 next := by
  obtain ⟨elems, child, found, nonneg, kind⟩ := selectIndex_found present
  have below := (List.getElem?_eq_some_iff.mp found).1
  obtain ⟨rfl, taken⟩ | ⟨rfl, taken⟩ := kind
  · obtain ⟨type, count, element, typed, each⟩ := Value.conforms_array conforms
    rw [taken]
    refine ⟨element, ?_, each child (List.mem_of_getElem? found), ?_⟩
    · have inside : ¬(index < 0 ∨ index ≥ cur.count) := by
        refine not_or.mpr ⟨nonneg, ?_⟩
        rw [ge_iff_le, Int64.le_iff_toInt_le]
        omega
      simp only [TypeSpec.childByIndex, type]
      rw [if_neg inside, typed]
    · exact knows.imp (fun none => by rw [none]; rfl) (fun known => by rw [known]; exact typed)
  · obtain ⟨type, each⟩ := Value.conforms_struct conforms
    obtain ⟨label, next, typed, conforming⟩ := conformsEach_getElem each found
    rw [taken]
    refine ⟨next, ?_, conforming, ?_⟩
    · have length := conformsEach_length each
      have inside : ¬(index < 0 ∨ index.toInt ≥ cur.elements.length) :=
        not_or.mpr ⟨nonneg, by omega⟩
      simp only [TypeSpec.childByIndex, type]
      rw [if_neg inside, typed]
      rfl
    · refine knows.imp (fun none => by rw [none]; rfl) fun known => ?_
      simp only [known, structureElementType, typed, Option.map_some]

theorem selectRange_sound {start count : Int64} (conforms : val.conforms cur = true)
    (startBound : 0 ≤ start.toInt ∧ start.toInt < 2 ^ 32)
    (countBound : 0 ≤ count.toInt ∧ count.toInt < 2 ^ 32)
    (present : selectRange val start count ≠ .nil) :
    cur.type = .array ∧ cur.element.isSome ∧
      (selectRange val start count).conforms
        { type := .array, count := count, element := cur.element } = true := by
  cases val with
  | array elements =>
    obtain ⟨type, length, element, typed, each⟩ := Value.conforms_array conforms
    unfold selectRange at present ⊢
    dsimp only at present ⊢
    by_cases outside : outsideRange start count elements.length = true
    · rw [if_pos outside] at present
      exact absurd rfl present
    · rw [Bool.not_eq_true] at outside
      have inside := (range_inside startBound countBound outside).2
      refine ⟨type, by rw [typed]; rfl, ?_⟩
      rw [if_neg (by rw [outside]; exact Bool.false_ne_true)]
      have size : (((elements.drop start.toInt.toNat).take count.toInt.toNat).length : Int) =
          count.toInt := by
        rw [List.length_take, List.length_drop]
        omega
      simp only [Value.conforms, beq_self_eq_true, size, typed, Bool.true_and]
      exact conformsAll_iff.mpr fun value member =>
        each value (List.mem_of_mem_drop (List.mem_of_mem_take member))
  | _ => exact absurd rfl present

/-- One selector: what the reader finds is of the type that `Resolve` finds. -/
theorem applySingleSelector_sound (i : Nat) (conforms : val.conforms cur = true)
    (knows : Knows ts cur) (bounded : InUnsigned32 (accessSelectorToWire sel))
    (present : (applySingleSelector val ts (accessSelectorToWire sel)).1 ≠ .nil) :
    ∃ next, cur.resolveSelector quote i sel = .ok next ∧
      (applySingleSelector val ts (accessSelectorToWire sel)).1.conforms next = true ∧
      Knows (applySingleSelector val ts (accessSelectorToWire sel)).2 next := by
  obtain ⟨component, index, indexRange⟩ := sel
  unfold applySingleSelector accessSelectorToWire at present ⊢
  unfold TypeSpec.resolveSelector
  dsimp only at present ⊢
  by_cases named : component ≠ []
  · rw [if_pos named] at present ⊢
    obtain ⟨next, child, conforming, knowing⟩ := selectComponent_sound conforms knows present
    rw [if_pos named, child]
    exact ⟨next, rfl, conforming, knowing⟩
  · rw [if_neg named] at present ⊢
    rw [if_neg named]
    cases index with
    | some index =>
      simp only [Option.isSome_some, if_true, Option.getD_some] at present ⊢
      obtain ⟨next, child, conforming, knowing⟩ := selectIndex_sound conforms knows present
      rw [child]
      exact ⟨next, rfl, conforming, knowing⟩
    | none =>
      cases indexRange with
      | some range =>
        obtain ⟨startBound, countBound⟩ := bounded.2 ⟨range.start, range.count⟩ rfl
        obtain ⟨type, typed, conforming⟩ := selectRange_sound conforms startBound countBound present
        refine ⟨_, ?_, conforming, .inl rfl⟩
        dsimp only
        rw [if_neg (not_not_intro type),
          if_neg (by rw [Option.isNone_iff_eq_none, ← Option.not_isSome_iff_eq_none, typed]
                     exact not_not_intro rfl)]
      | none => exact absurd rfl present

theorem read_nil (ts : Option TypeSpec) (selectors : List AccessSelectorWire) :
    applyAlternateAccessRead .nil ts selectors = .nil := by
  cases selectors with
  | nil => rfl
  | cons sel selectors => rfl

theorem Value.ne_nil_of_conforms (conforms : val.conforms cur = true) : val ≠ .nil := by
  rintro rfl
  cases conforms

/-- A whole chain, from what the reader knows of the type on. -/
theorem read_sound {selectors : List AccessSelector} (i : Nat) (conforms : val.conforms cur = true)
    (knows : Knows ts cur)
    (bounded : ∀ sel ∈ selectors, InUnsigned32 (accessSelectorToWire sel))
    (present : applyAlternateAccessRead val ts (selectors.map accessSelectorToWire) ≠ .nil) :
    ∃ selected, cur.resolveFrom quote i selectors = .ok selected ∧
      (applyAlternateAccessRead val ts (selectors.map accessSelectorToWire)).conforms selected =
        true := by
  induction selectors generalizing val ts cur i with
  | nil =>
    simp only [List.map_nil, applyAlternateAccessRead]
    exact ⟨cur, rfl, conforms⟩
  | cons sel selectors ih =>
    obtain ⟨first, others⟩ := List.forall_mem_cons.mp bounded
    rw [List.map_cons, applyAlternateAccessRead_cons (Value.ne_nil_of_conforms conforms)] at present ⊢
    have found : (applySingleSelector val ts (accessSelectorToWire sel)).1 ≠ .nil := by
      intro none
      rw [none, read_nil] at present
      exact present rfl
    obtain ⟨next, resolved, conforming, knowing⟩ :=
      @applySingleSelector_sound quote val cur ts sel i conforms knows first found
    obtain ⟨selected, rest, final⟩ := ih (i + 1) conforming knowing others present
    refine ⟨selected, ?_, final⟩
    rw [TypeSpec.resolveFrom, resolved]
    exact rest

/-- What the server reads from a value of a type is of the type that `Resolve` finds with the same
selectors. -/
theorem applyAlternateAccessRead_typed (quote : Octets → String) (v : Value) (ts : TypeSpec)
    (selectors : List AccessSelector) (conforms : v.conforms ts = true)
    (bounded : ∀ sel ∈ selectors, InUnsigned32 (accessSelectorToWire sel))
    (present : applyAlternateAccessRead v (some ts) (selectors.map accessSelectorToWire) ≠ .nil) :
    ∃ selected, TypeSpec.resolve quote (some ts) selectors = .ok (some selected) ∧
      (applyAlternateAccessRead v (some ts) (selectors.map accessSelectorToWire)).conforms
        selected = true := by
  obtain ⟨selected, resolved, conforming⟩ :=
    @read_sound quote v ts (some ts) selectors 0 conforms (.inr rfl) bounded present
  refine ⟨selected, ?_, conforming⟩
  rw [TypeSpec.resolve, resolved]

/-- A structure behind a range, where the reader knows no type. -/
theorem applyAlternateAccessRead_typed_range :
    let row : TypeSpec := { type := .struct, elements := [([0x61], { type := .integer })] }
    let rows : Value := .array [.struct [.integer 1], .struct [.integer 2], .struct [.integer 3]]
    ∃ selected, TypeSpec.resolve (fun _ => "")
        (some { type := .array, count := 3, element := some row })
        [⟨[], none, some ⟨1, 2⟩⟩, ⟨[], some 1, none⟩] = .ok (some selected) ∧
      (applyAlternateAccessRead rows (some { type := .array, count := 3, element := some row })
        [⟨[], false, 0, some ⟨1, 2⟩⟩, ⟨[], true, 1, none⟩]).conforms selected = true := by
  intro row rows
  have bounded : ∀ sel ∈ ([⟨[], none, some ⟨1, 2⟩⟩, ⟨[], some 1, none⟩] : List AccessSelector),
      InUnsigned32 (accessSelectorToWire sel) := by
    simp only [List.forall_mem_cons]
    refine ⟨⟨by decide, ?_⟩, ⟨by decide, fun range none => by cases none⟩, by simp⟩
    rintro range ⟨⟩
    decide
  have read : applyAlternateAccessRead rows
      (some { type := .array, count := 3, element := some row })
      ([⟨[], none, some ⟨1, 2⟩⟩, ⟨[], some 1, none⟩].map accessSelectorToWire) =
        .struct [.integer 3] := rfl
  exact applyAlternateAccessRead_typed (fun _ => "") rows _ _ (by decide) bounded
    (by rw [read]; exact nofun)

end Sound

/-! ## The client's selection -/

mutual

/-- Neither the value nor a value inside it is nil. -/
def Value.solid : Value → Bool
  | .nil => false
  | .array elements => solidAll elements
  | .struct elements => solidAll elements
  | _ => true

def solidAll : List Value → Bool
  | [] => true
  | value :: values => value.solid && solidAll values

end

section Get

variable (quote : Octets → String)

/-- The range of an array: `make` panics on a negative count, the slice expression outside the
elements. -/
def getRange (i : Nat) (elems : List Value) (start count : Int64) :
    Except Fault (Except String Value) :=
  if outsideRange start count elems.length then
    .ok (.error (TypeSpec.atSelector i ("range [" ++ toString start ++ ".." ++
      toString (start + count) ++ ") out of bounds (array has " ++ toString elems.length ++
      " elements)")))
  else if count < 0 then .error .sliceOutOfRange
  else do
    let sub ← slice elems start.toInt.toNat (start + count).toInt.toNat
    return .ok (.array sub)

/-- The element of a composite of the given kind. -/
def getIndex (i : Nat) (kind : String) (elems : List Value) (index : Int64) :
    Except String Value :=
  if index < 0 then
    .error (TypeSpec.atSelector i ("index " ++ toString index ++ " out of range (" ++ kind ++
      " has " ++ toString elems.length ++ " elements)"))
  else
    match elems[index.toInt.toNat]? with
    | none =>
      .error (TypeSpec.atSelector i ("index " ++ toString index ++ " out of range (" ++ kind ++
        " has " ++ toString elems.length ++ " elements)"))
    | some child => .ok child

/-- The text of a value's type. -/
def Value.typeString (value : Value) : String := (value.type.map ValueType.string).getD ""

/-- The body of the loop of `Get`, for selector `i`. -/
def Value.getSelector (cur : Value) (i : Nat) (sel : AccessSelector) :
    Except Fault (Except String Value) :=
  if cur.type = none then .ok (.error ("nil value at selector [" ++ toString i ++ "]"))
  else if sel.component ≠ [] then
    if cur.type ≠ some .struct then
      .ok (.error (TypeSpec.atSelector i ("component " ++ quote sel.component ++
        " on non-structure type " ++ cur.typeString)))
    else
      .ok (.error (TypeSpec.atSelector i
        "component access requires TypeSpec context; use TypeSpec.Resolve instead"))
  else
    match sel.index, sel.indexRange with
    | some index, _ =>
      match cur with
      | .struct elems => .ok (getIndex i "structure" elems index)
      | .array elems => .ok (getIndex i "array" elems index)
      | _ => .ok (.error (TypeSpec.atSelector i ("index on non-composite type " ++ cur.typeString)))
    | none, some range =>
      match cur with
      | .array elems => getRange i elems range.start range.count
      | _ => .ok (.error (TypeSpec.atSelector i ("index range on non-array type " ++
          cur.typeString)))
    | none, none => .ok (.error (TypeSpec.atSelector i "no field set"))

/-- The loop of `Get` from selector `i` on. -/
def Value.getFrom (cur : Value) : (i : Nat) → List AccessSelector →
    Except Fault (Except String Value)
  | _, [] => .ok (.ok cur)
  | i, sel :: selectors => do
      match ← cur.getSelector quote i sel with
      | .error text => return .error text
      | .ok next => next.getFrom (i + 1) selectors

def Value.get (value : Value) (selectors : List AccessSelector) :
    Except Fault (Except String Value) :=
  value.getFrom quote 0 selectors

end Get

section Agree

variable {quote : Octets → String} {val : Value} {sel : AccessSelector}

theorem Value.solid_ne_nil (solid : val.solid = true) : val ≠ .nil := by
  rintro rfl
  cases solid

theorem solidAll_iff {values : List Value} :
    solidAll values = true ↔ ∀ value ∈ values, value.solid = true := by
  induction values with
  | nil => simp [solidAll]
  | cons value values ih => simp [solidAll, ih]

/-- The outcome of one selector: nothing for the reader where the client has an error, and
otherwise the same solid value. -/
def Agrees (result : Except String Value) (read : Value) : Prop :=
  match result with
  | .error _ => read = .nil
  | .ok found => read = found ∧ found.solid = true

variable {elems : List Value}

theorem getIndex_agrees (i : Nat) (kind : String) (index : Int64)
    (solid : ∀ value ∈ elems, value.solid = true) :
    Agrees (getIndex i kind elems index)
      (if index < 0 then .nil else elems[index.toInt.toNat]?.getD .nil) := by
  unfold getIndex
  split_ifs with negative
  · rfl
  · cases child : elems[index.toInt.toNat]? with
    | none => rfl
    | some value => exact ⟨rfl, solid value (List.mem_of_getElem? child)⟩

theorem getRange_agrees (i : Nat) {start count : Int64}
    (solid : ∀ value ∈ elems, value.solid = true)
    (startBound : 0 ≤ start.toInt ∧ start.toInt < 2 ^ 32)
    (countBound : 0 ≤ count.toInt ∧ count.toInt < 2 ^ 32) :
    ∃ result, getRange i elems start count = .ok result ∧
      Agrees result (selectRange (.array elems) start count) := by
  unfold getRange selectRange
  dsimp only
  by_cases outside : outsideRange start count elems.length = true
  · rw [if_pos outside, if_pos outside]
    exact ⟨_, rfl, rfl⟩
  · rw [if_neg outside, if_neg outside]
    rw [Bool.not_eq_true] at outside
    obtain ⟨total, inside⟩ := range_inside startBound countBound outside
    have counted : ¬count < 0 := by
      rw [Int64.lt_iff_toInt_lt, Int64.toInt_zero]
      omega
    have size : (start + count).toInt.toNat - start.toInt.toNat = count.toInt.toNat := by
      omega
    rw [if_neg counted, slice_eq (by omega) (by omega), ok_bind, size]
    refine ⟨_, rfl, rfl, ?_⟩
    exact solidAll_iff.mpr fun value member =>
      solid value (List.mem_of_mem_drop (List.mem_of_mem_take member))

/-- The reader's choice by index, without a type. -/
theorem selectIndex_untyped (composite : val.IsComposite) (index : Int64) :
    selectIndex val none index =
      (if index < 0 then .nil else val.elements[index.toInt.toNat]?.getD .nil, none) := by
  cases val with
  | array elems | struct elems =>
    simp only [selectIndex, Value.elements]
    split_ifs with negative
    · rfl
    · cases elems[index.toInt.toNat]? with
      | none => rfl
      | some child => rfl
  | _ => simp [Value.IsComposite, Value.type] at composite

/-- One selector: the client finds what the reader finds without a type, and the reader learns no
type. -/
theorem getSelector_agrees (i : Nat) (solid : val.solid = true)
    (bounded : InUnsigned32 (accessSelectorToWire sel)) :
    ∃ result, val.getSelector quote i sel = .ok result ∧
      Agrees result (applySingleSelector val none (accessSelectorToWire sel)).1 ∧
      (applySingleSelector val none (accessSelectorToWire sel)).2 = none := by
  obtain ⟨component, index, indexRange⟩ := sel
  have typed : val.type ≠ none := by
    cases val with
    | nil => cases solid
    | _ => exact nofun
  unfold Value.getSelector applySingleSelector accessSelectorToWire
  dsimp only
  rw [if_neg typed]
  by_cases named : component ≠ []
  · have nothing : selectComponent val none component = (.nil, none) := by
      unfold selectComponent
      split_ifs <;> rfl
    rw [if_pos named, if_pos named, nothing]
    split_ifs <;> exact ⟨_, rfl, rfl, rfl⟩
  · rw [if_neg named, if_neg named]
    cases index with
    | some index =>
      simp only [Option.isSome_some, if_true, Option.getD_some]
      cases val with
      | array elems =>
        rw [selectIndex_untyped (.inl rfl)]
        exact ⟨_, rfl, getIndex_agrees i "array" index (solidAll_iff.mp solid), rfl⟩
      | struct elems =>
        rw [selectIndex_untyped (.inr rfl)]
        exact ⟨_, rfl, getIndex_agrees i "structure" index (solidAll_iff.mp solid), rfl⟩
      | _ => exact ⟨_, rfl, rfl, rfl⟩
    | none =>
      cases indexRange with
      | some range =>
        obtain ⟨startBound, countBound⟩ := bounded.2 ⟨range.start, range.count⟩ rfl
        cases val with
        | array elems =>
          obtain ⟨result, got, agrees⟩ :=
            getRange_agrees i (solidAll_iff.mp solid) startBound countBound
          exact ⟨result, got, agrees, rfl⟩
        | _ => exact ⟨_, rfl, rfl, rfl⟩
      | none => exact ⟨_, rfl, rfl, rfl⟩

theorem getFrom_agrees {selectors : List AccessSelector} (i : Nat) (solid : val.solid = true)
    (bounded : ∀ sel ∈ selectors, InUnsigned32 (accessSelectorToWire sel)) :
    ∃ result, val.getFrom quote i selectors = .ok result ∧
      Agrees result (applyAlternateAccessRead val none (selectors.map accessSelectorToWire)) := by
  induction selectors generalizing val i with
  | nil =>
    refine ⟨.ok val, rfl, ?_, solid⟩
    simp only [List.map_nil, applyAlternateAccessRead]
  | cons sel selectors ih =>
    obtain ⟨first, others⟩ := List.forall_mem_cons.mp bounded
    obtain ⟨result, got, agrees, untyped⟩ := @getSelector_agrees quote val sel i solid first
    rw [List.map_cons, applyAlternateAccessRead_cons (Value.solid_ne_nil solid), untyped, Value.getFrom, got, ok_bind]
    cases result with
    | error text =>
      refine ⟨_, rfl, ?_⟩
      rw [show (applySingleSelector val none (accessSelectorToWire sel)).1 = .nil from agrees,
        read_nil]
      rfl
    | ok next =>
      obtain ⟨same, found⟩ := agrees
      rw [same]
      exact ih (i + 1) found others

/-- For a value without nil inside and any chain of selectors in range, the client's `Get` does not
panic; it fails where the server, without a type, reads nothing, and otherwise both select equal
values. -/
theorem get_agrees_read (quote : Octets → String) (v : Value) (solid : v.solid = true)
    (selectors : List AccessSelector)
    (bounded : ∀ sel ∈ selectors, InUnsigned32 (accessSelectorToWire sel)) :
    ∃ result, v.get quote selectors = .ok result ∧
      ((∃ text, result = .error text) ↔
        applyAlternateAccessRead v none (selectors.map accessSelectorToWire) = .nil) ∧
      ∀ found, result = .ok found → found.equal
        (applyAlternateAccessRead v none (selectors.map accessSelectorToWire)) = true := by
  obtain ⟨result, got, agrees⟩ := @getFrom_agrees quote v selectors 0 solid bounded
  refine ⟨result, got, ?_, ?_⟩
  · cases result with
    | error text => exact iff_of_true ⟨text, rfl⟩ agrees
    | ok found =>
      refine iff_of_false nofun ?_
      rw [agrees.1]
      exact Value.solid_ne_nil agrees.2
  · rintro found rfl
    rw [agrees.1]
    exact found.equal_self

/-- A range of a range, and an element of it. -/
theorem get_agrees_read_ranges :
    let rows : Value := .array [.integer 1, .integer 2, .float 0x7ff8000000000001, .integer 4]
    let chain : List AccessSelector :=
      [⟨[], none, some ⟨1, 3⟩⟩, ⟨[], none, some ⟨1, 2⟩⟩, ⟨[], some 0, none⟩]
    ∃ result, rows.get (fun _ => "") chain = .ok result ∧ ∀ found, result = .ok found →
      found.equal (applyAlternateAccessRead rows none (chain.map accessSelectorToWire)) = true := by
  intro rows chain
  have bounded : ∀ sel ∈ chain, InUnsigned32 (accessSelectorToWire sel) := by
    simp only [chain, List.forall_mem_cons]
    refine ⟨⟨by decide, ?_⟩, ⟨by decide, ?_⟩, ⟨by decide, fun range none => by cases none⟩, by simp⟩
    · rintro range ⟨⟩
      decide
    · rintro range ⟨⟩
      decide
  obtain ⟨result, got, -, same⟩ := get_agrees_read (fun _ => "") rows (by decide) chain bounded
  exact ⟨result, got, same⟩

end Agree

end GoMms.Mms
