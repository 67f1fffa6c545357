import GoMms.Mms.Value
import GoMms.Pdu.ObjectName
import GoMms.Servermodel.Registry

/-!
# Alternate access

`server_altaccess.go`: a chain of selectors addresses an element of a value, or a range of the
elements of an array. The reader walks down a value and its type specification together; the
writer descends recursively and replaces what it reaches. Here both are functions of values;
`GoMms.Mms.InPlace` has the writer with its clone and its assignments.
-/

namespace GoMms.Mms

open Pdu

inductive ValueType where
  | boolean
  | integer
  | unsigned
  | float
  | bitString
  | octetString
  | visibleString
  | mmsString
  | utcTime
  | binaryTime
  | array
  | struct
  | dataAccessError
  | namedType
  | generalizedTime
  | bcd
  | objectIdentifier
  | real
  | booleanArray
  deriving DecidableEq, Repr

def ValueType.string : ValueType → String
  | .boolean => "Boolean"
  | .integer => "Integer"
  | .unsigned => "Unsigned"
  | .float => "Float"
  | .bitString => "BitString"
  | .octetString => "OctetString"
  | .visibleString => "VisibleString"
  | .mmsString => "MmsString"
  | .utcTime => "UTCTime"
  | .binaryTime => "BinaryTime"
  | .array => "Array"
  | .struct => "Structure"
  | .dataAccessError => "DataAccessError"
  | .namedType => "NamedType"
  | .generalizedTime => "GeneralizedTime"
  | .bcd => "BCD"
  | .objectIdentifier => "ObjectIdentifier"
  | .real => "Real"
  | .booleanArray => "BooleanArray"

/-- A type specification: the named elements of a structure, the count and the element type of
an array, the width or size of a scalar, the widths of a float, the type a named type refers to. -/
structure TypeSpec where
  type : ValueType
  elements : List (Octets × TypeSpec) := []
  count : Int64 := 0
  element : Option TypeSpec := none
  size : Int64 := 0
  formatWidth : Int64 := 0
  exponentWidth : Int64 := 0
  typeName : Option Servermodel.EntryName := none

/-- `Type`; a nil value has none. -/
def Value.type : Value → Option ValueType
  | .nil => none
  | .boolean _ => some .boolean
  | .integer _ => some .integer
  | .unsigned _ => some .unsigned
  | .float _ => some .float
  | .bitString _ _ => some .bitString
  | .octetString _ => some .octetString
  | .visibleString _ => some .visibleString
  | .mmsString _ => some .mmsString
  | .utcTime _ _ => some .utcTime
  | .binaryTime _ => some .binaryTime
  | .array _ => some .array
  | .struct _ => some .struct
  | .generalizedTime _ => some .generalizedTime
  | .bcd _ => some .bcd
  | .objectIdentifier _ => some .objectIdentifier
  | .real _ => some .real
  | .booleanArray _ _ => some .booleanArray
  | .dataAccessError _ => some .dataAccessError

/-- The elements of a composite value. -/
def Value.elements : Value → List Value
  | .array elements => elements
  | .struct elements => elements
  | _ => []

/-- The value with other elements. -/
def Value.withElements (value : Value) (elements : List Value) : Value :=
  match value with
  | .array _ => .array elements
  | .struct _ => .struct elements
  | other => other

/-- `ShallowCompatible`: the outermost type, and the element count of a composite. -/
def TypeSpec.shallowCompatible (spec : TypeSpec) (value : Value) : Bool :=
  value.type == some spec.type &&
    match value with
    | .struct elements => elements.length == spec.elements.length
    | .array elements => (elements.length : Int) == spec.count.toInt
    | _ => true

/-- `childTs != nil && !childTs.ShallowCompatible(v)` does not hold. -/
def admits (childTs : Option TypeSpec) (value : Value) : Bool :=
  match childTs with
  | none => true
  | some spec => spec.shallowCompatible value

/-- The type of element `index` of a structure type. -/
def structureElementType (ts : Option TypeSpec) (index : Nat) : Option TypeSpec :=
  match ts with
  | none => none
  | some spec => spec.elements[index]?.map Prod.snd

def resolveComponentIndex (ts : Option TypeSpec) (name : Octets) : Option Nat :=
  match ts with
  | none => none
  | some spec =>
    if spec.type ≠ .struct then none
    else spec.elements.findIdx? fun element => element.1 == name

/-! ## Reading -/

def selectComponent (val : Value) (ts : Option TypeSpec) (name : Octets) :
    Value × Option TypeSpec :=
  if val.type ≠ some .struct then (.nil, none)
  else
    match resolveComponentIndex ts name with
    | none => (.nil, none)
    | some idx =>
      match val.elements[idx]? with
      | none => (.nil, none)
      | some child => (child, structureElementType ts idx)

def selectIndex (val : Value) (ts : Option TypeSpec) (index : Int64) : Value × Option TypeSpec :=
  match val with
  | .array elems =>
    if index < 0 then (.nil, none)
    else
      match elems[index.toInt.toNat]? with
      | none => (.nil, none)
      | some child => (child, ts.bind TypeSpec.element)
  | .struct elems =>
    if index < 0 then (.nil, none)
    else
      match elems[index.toInt.toNat]? with
      | none => (.nil, none)
      | some child => (child, structureElementType ts index.toInt.toNat)
  | _ => (.nil, none)

/-- `start < 0 || start+count > len` in wrapping arithmetic. -/
def outsideRange (start count : Int64) (length : Nat) : Bool :=
  decide (start < 0) || decide ((start + count).toInt > length)

def selectRange (val : Value) (start count : Int64) : Value :=
  match val with
  | .array elems =>
    if outsideRange start count elems.length then .nil
    else .array ((elems.drop start.toInt.toNat).take count.toInt.toNat)
  | _ => .nil

def applySingleSelector (val : Value) (ts : Option TypeSpec) (sel : AccessSelectorWire) :
    Value × Option TypeSpec :=
  if sel.component ≠ [] then selectComponent val ts sel.component
  else if sel.hasIndex then selectIndex val ts sel.index
  else
    match sel.indexRange with
    | some range => (selectRange val range.lowIndex range.numberOfElements, none)
    | none => (.nil, none)

def applyAlternateAccessRead : Value → Option TypeSpec → List AccessSelectorWire → Value
  | val, _, [] => val
  | .nil, _, _ :: _ => .nil
  | val, ts, sel :: selectors =>
    let (val, ts) := applySingleSelector val ts sel
    applyAlternateAccessRead val ts selectors

/-! ## Writing -/

/-- The element `patchComponent` goes to, with its type. -/
def componentTarget (type : Option ValueType) (length : Nat) (ts : Option TypeSpec)
    (name : Octets) : Option (Nat × Option TypeSpec) :=
  if type ≠ some .struct then none
  else
    match resolveComponentIndex ts name with
    | none => none
    | some idx => if idx ≥ length then none else some (idx, structureElementType ts idx)

/-- The element `patchIndex` goes to, with its type. -/
def indexTarget (type : Option ValueType) (length : Nat) (ts : Option TypeSpec)
    (index : Int64) : Option (Nat × Option TypeSpec) :=
  if type ≠ some .array ∧ type ≠ some .struct then none
  else if index < 0 ∨ index.toInt ≥ length then none
  else if type = some .struct then
    some (index.toInt.toNat, structureElementType ts index.toInt.toNat)
  else some (index.toInt.toNat, ts.bind TypeSpec.element)

/-- The elements from `start` on replaced one after the other. -/
def setElements (elements : List Value) (start : Nat) : List Value → List Value
  | [] => elements
  | value :: rest => setElements (elements.set start value) (start + 1) rest

/-- `patchRange`: the new elements of the array. -/
def patchRange (val : Value) (start count : Int64) (remaining : List AccessSelectorWire)
    (writeVal : Value) : Option Value :=
  match val with
  | .array elems =>
    if outsideRange start count elems.length then none
    else if remaining ≠ [] then none
    else
      match writeVal with
      | .array newElems =>
        if (newElems.length : Int) ≠ count.toInt then none
        else some (.array (setElements elems start.toInt.toNat newElems))
      | _ => none
  | _ => none

/-- The tail of `patchComponent` and `patchIndex`: replace the element they go to, or descend
into it. -/
def patchElement (val : Value) (target : Option (Nat × Option TypeSpec))
    (remaining : List AccessSelectorWire) (writeVal : Value)
    (descend : Value → Option TypeSpec → Option Value) : Option Value :=
  match target with
  | none => none
  | some (idx, childTs) =>
    if remaining = [] then
      if admits childTs writeVal then
        some (val.withElements (val.elements.set idx writeVal))
      else none
    else
      match descend (val.elements.getD idx .nil) childTs with
      | none => none
      | some child => some (val.withElements (val.elements.set idx child))

/-- `patchValue`: the patched value, if the path is valid. No selector applies to a nil value,
which has no type. -/
def patchValue (val : Value) (ts : Option TypeSpec) (selectors : List AccessSelectorWire)
    (writeVal : Value) : Option Value :=
  match selectors with
  | [] => none
  | sel :: remaining =>
    if sel.component ≠ [] then
      patchElement val (componentTarget val.type val.elements.length ts sel.component) remaining
        writeVal fun child childTs => patchValue child childTs remaining writeVal
    else if sel.hasIndex then
      patchElement val (indexTarget val.type val.elements.length ts sel.index) remaining
        writeVal fun child childTs => patchValue child childTs remaining writeVal
    else
      match sel.indexRange with
      | some range => patchRange val range.lowIndex range.numberOfElements remaining writeVal
      | none => none

/-- `applyAlternateAccessWrite`; nil if the path is invalid. -/
def applyAlternateAccessWrite (current : Value) (ts : Option TypeSpec)
    (selectors : List AccessSelectorWire) (writeVal : Value) : Value :=
  if selectors = [] then writeVal
  else (patchValue current ts selectors writeVal).getD .nil

/-! ## Elements of composites -/

section Elements

variable {val writeVal : Value} {ts childTs : Option TypeSpec} {sel : AccessSelectorWire}
  {remaining : List AccessSelectorWire} {elements : List Value}

/-- The value is an array or a structure. -/
def Value.IsComposite (value : Value) : Prop :=
  value.type = some .array ∨ value.type = some .struct

theorem Value.withElements_elements (value : Value) :
    value.withElements value.elements = value := by
  cases value <;> rfl

theorem Value.withElements_withElements (value : Value) (first second : List Value) :
    (value.withElements first).withElements second = value.withElements second := by
  cases value <;> rfl

@[simp] theorem Value.type_withElements (value : Value) (elements : List Value) :
    (value.withElements elements).type = value.type := by
  cases value <;> rfl

theorem Value.IsComposite.elements_withElements (composite : val.IsComposite)
    (elements : List Value) : (val.withElements elements).elements = elements := by
  cases val <;> first | rfl | simp [Value.IsComposite, Value.type] at composite

theorem Value.IsComposite.ne_nil (composite : val.IsComposite) : val ≠ .nil := by
  rintro rfl
  simp [Value.IsComposite, Value.type] at composite

/-- The element a component or index selector goes to, with its type. -/
def elementTarget (type : Option ValueType) (length : Nat) (ts : Option TypeSpec)
    (sel : AccessSelectorWire) : Option (Nat × Option TypeSpec) :=
  if sel.component ≠ [] then componentTarget type length ts sel.component
  else if sel.hasIndex then indexTarget type length ts sel.index
  else none

variable {idx : Nat}

variable {type : Option ValueType} {length : Nat}

theorem componentTarget_eq_some {name : Octets}
    (found : componentTarget type length ts name = some (idx, childTs)) :
    type = some .struct ∧ idx < length ∧ resolveComponentIndex ts name = some idx ∧
      childTs = structureElementType ts idx := by
  simp only [componentTarget] at found
  split at found
  · cases found
  rename_i structured
  split at found
  · cases found
  rename_i index resolved
  split at found
  · cases found
  rename_i inside
  cases found
  exact ⟨not_not.mp structured, Nat.lt_of_not_le inside, resolved, rfl⟩

theorem indexTarget_eq_some {index : Int64}
    (found : indexTarget type length ts index = some (idx, childTs)) :
    (type = some .array ∧ childTs = ts.bind TypeSpec.element ∨
      type = some .struct ∧ childTs = structureElementType ts idx) ∧
      idx < length ∧ ¬ index < 0 ∧ idx = index.toInt.toNat := by
  simp only [indexTarget] at found
  split at found
  · cases found
  rename_i composite
  split at found
  · cases found
  rename_i inside
  obtain ⟨nonneg, below⟩ := not_or.mp inside
  have nat : 0 ≤ index.toInt := by
    simpa [Int64.lt_iff_toInt_lt] using nonneg
  split at found
  · rename_i structured
    cases found
    exact ⟨.inr ⟨structured, rfl⟩, by omega, nonneg, rfl⟩
  rename_i unstructured
  cases found
  have array : type = some .array := by
    by_contra other
    exact composite ⟨other, unstructured⟩
  exact ⟨.inl ⟨array, rfl⟩, by omega, nonneg, rfl⟩

/-- The element is one of a composite value. -/
theorem elementTarget_inside
    (found : elementTarget val.type val.elements.length ts sel = some (idx, childTs)) :
    val.IsComposite ∧ idx < val.elements.length := by
  simp only [elementTarget] at found
  split at found
  · obtain ⟨structured, inside, -⟩ := componentTarget_eq_some found
    exact ⟨.inr structured, inside⟩
  · split at found
    · obtain ⟨array | structured, inside, -⟩ := indexTarget_eq_some found
      · exact ⟨.inl array.1, inside⟩
      · exact ⟨.inr structured.1, inside⟩
    · cases found

/-- The reader goes to the same element as the writer. -/
theorem applySingleSelector_of_target
    (found : elementTarget val.type val.elements.length ts sel = some (idx, childTs)) :
    applySingleSelector val ts sel = (val.elements.getD idx .nil, childTs) := by
  have inside := (elementTarget_inside found).2
  have element : val.elements[idx]? = some (val.elements.getD idx .nil) := by
    simp [inside]
  simp only [elementTarget] at found
  simp only [applySingleSelector]
  split at found
  · rename_i named
    obtain ⟨structured, -, resolved, rfl⟩ := componentTarget_eq_some found
    simp only [if_pos named, selectComponent, structured, ne_eq, not_true_eq_false, if_false,
      resolved, element]
  rename_i unnamed
  split at found
  · rename_i indexed
    obtain ⟨kind, -, nonneg, rfl⟩ := indexTarget_eq_some found
    rw [if_neg unnamed, if_pos indexed]
    cases val with
    | array elems =>
      obtain ⟨-, rfl⟩ | ⟨other, -⟩ := kind
      · simp only [selectIndex, if_neg nonneg]
        simp only [Value.elements] at element ⊢
        rw [element]
      · simp [Value.type] at other
    | struct elems =>
      obtain ⟨other, -⟩ | ⟨-, rfl⟩ := kind
      · simp [Value.type] at other
      · simp only [selectIndex, if_neg nonneg]
        simp only [Value.elements] at element ⊢
        rw [element]
    | _ => simp [Value.elements] at inside
  · cases found

end Elements

/-! ## Ranges of elements -/

section Ranges

variable {elements news : List Value} {start : Nat}

@[simp] theorem length_setElements (elements : List Value) (start : Nat) (news : List Value) :
    (setElements elements start news).length = elements.length := by
  induction news generalizing elements start with
  | nil => rfl
  | cons value rest ih => rw [setElements, ih, List.length_set]

/-- Inside the range stand the new elements, outside the old ones. -/
theorem getElem?_setElements (inside : start + news.length ≤ elements.length) (index : Nat) :
    (setElements elements start news)[index]? =
      if start ≤ index ∧ index < start + news.length then news[index - start]?
      else elements[index]? := by
  induction news generalizing elements start with
  | nil =>
    rw [if_neg (by simp), setElements]
  | cons value rest ih =>
    rw [List.length_cons] at inside ⊢
    rw [setElements, ih (by rw [List.length_set]; omega), List.getElem?_set]
    by_cases first : start = index
    · subst first
      simp only [Nat.succ_le_iff, Nat.lt_irrefl, false_and, if_false, if_true,
        show start < elements.length by omega, Nat.le_refl, true_and, Nat.sub_self,
        show start < start + (rest.length + 1) by omega, List.getElem?_cons_zero]
    · by_cases within : start + 1 ≤ index ∧ index < start + 1 + rest.length
      · have shift : index - start = index - (start + 1) + 1 := by omega
        rw [if_pos within, if_pos (by omega), shift, List.getElem?_cons_succ]
      · rw [if_neg within, if_neg first, if_neg (by omega)]

theorem take_drop_setElements (inside : start + news.length ≤ elements.length) :
    ((setElements elements start news).drop start).take news.length = news := by
  refine List.ext_getElem? fun index => ?_
  rw [List.getElem?_take, List.getElem?_drop, getElem?_setElements inside]
  split
  · rw [if_pos (by omega), Nat.add_sub_cancel_left]
  · rw [List.getElem?_eq_none (by omega)]

theorem setElements_setElements {later : List Value} (same : later.length = news.length)
    (inside : start + news.length ≤ elements.length) :
    setElements (setElements elements start news) start later =
      setElements elements start later := by
  have fits : start + later.length ≤ elements.length := by omega
  have fitsAgain : start + later.length ≤ (setElements elements start news).length := by
    rwa [length_setElements]
  refine List.ext_getElem? fun index => ?_
  rw [getElem?_setElements fitsAgain, getElem?_setElements fits, getElem?_setElements inside, same]
  split <;> rfl

theorem setElements_take_drop {count : Nat} (inside : start + count ≤ elements.length) :
    setElements elements start ((elements.drop start).take count) = elements := by
  have length : ((elements.drop start).take count).length = count := by
    rw [List.length_take, List.length_drop]
    omega
  refine List.ext_getElem? fun index => ?_
  rw [getElem?_setElements (by rwa [length]), length]
  split
  · next within =>
      rw [List.getElem?_take, if_pos (by omega), List.getElem?_drop, Nat.add_sub_cancel' within.1]
  · rfl

end Ranges

/-! ## What a successful patch does -/

/-- The chain leads from a value to an element or a range of it, and the patched value has
`writeVal` there. -/
inductive Patches (writeVal : Value) :
    Value → Option TypeSpec → List AccessSelectorWire → Value → Prop
  | element {val ts sel idx childTs}
      (found : elementTarget val.type val.elements.length ts sel = some (idx, childTs))
      (admitted : admits childTs writeVal = true) :
      Patches writeVal val ts [sel] (val.withElements (val.elements.set idx writeVal))
  | descend {val ts sel idx childTs remaining child}
      (found : elementTarget val.type val.elements.length ts sel = some (idx, childTs))
      (more : remaining ≠ [])
      (below : Patches writeVal (val.elements.getD idx .nil) childTs remaining child) :
      Patches writeVal val ts (sel :: remaining) (val.withElements (val.elements.set idx child))
  | range {elems ts sel range news}
      (unnamed : sel.component = []) (unindexed : sel.hasIndex = false)
      (ranged : sel.indexRange = some range)
      (inside : outsideRange range.lowIndex range.numberOfElements elems.length = false)
      (news_eq : writeVal = .array news)
      (length_eq : (news.length : Int) = range.numberOfElements.toInt) :
      Patches writeVal (.array elems) ts [sel]
        (.array (setElements elems range.lowIndex.toInt.toNat news))

section Patches

variable {val writeVal patched : Value} {ts : Option TypeSpec} {sel : AccessSelectorWire}
  {remaining selectors : List AccessSelectorWire}

variable {target : Option (Nat × Option TypeSpec)}

theorem patchElement_ok {descend : Value → Option TypeSpec → Option Value}
    (ok : patchElement val target remaining writeVal descend = some patched) :
    ∃ idx childTs, target = some (idx, childTs) ∧
      (remaining = [] ∧ admits childTs writeVal = true ∧
          patched = val.withElements (val.elements.set idx writeVal) ∨
        remaining ≠ [] ∧ ∃ child, descend (val.elements.getD idx .nil) childTs = some child ∧
          patched = val.withElements (val.elements.set idx child)) := by
  rcases target with _ | ⟨idx, childTs⟩
  · cases ok
  refine ⟨idx, childTs, rfl, ?_⟩
  simp only [patchElement] at ok
  split at ok
  · rename_i last
    split at ok
    · rename_i admitted
      cases ok
      exact .inl ⟨last, admitted, rfl⟩
    · cases ok
  rename_i more
  split at ok
  · cases ok
  rename_i child below
  cases ok
  exact .inr ⟨more, child, below, rfl⟩

theorem patchRange_ok {start count : Int64}
    (ok : patchRange val start count remaining writeVal = some patched) :
    ∃ elems news, val = .array elems ∧ outsideRange start count elems.length = false ∧
      remaining = [] ∧ writeVal = .array news ∧ (news.length : Int) = count.toInt ∧
      patched = .array (setElements elems start.toInt.toNat news) := by
  cases val with
  | array elems =>
    simp only [patchRange] at ok
    split at ok
    · cases ok
    rename_i inside
    split at ok
    · cases ok
    rename_i last
    split at ok
    · rename_i news
      split at ok
      · cases ok
      rename_i length
      cases ok
      exact ⟨elems, news, rfl, Bool.eq_false_of_not_eq_true inside,
        not_not.mp last, rfl, not_not.mp length, rfl⟩
    · cases ok
  | _ => simp [patchRange] at ok

/-- A component or index selector patches the element it goes to. -/
theorem patchValue_of_target {idx : Nat} {childTs : Option TypeSpec}
    (found : elementTarget val.type val.elements.length ts sel = some (idx, childTs)) :
    patchValue val ts (sel :: remaining) writeVal =
      patchElement val (some (idx, childTs)) remaining writeVal
        fun child childTs => patchValue child childTs remaining writeVal := by
  simp only [elementTarget] at found
  rw [patchValue]
  split at found
  · next named => rw [if_pos named, found]
  rename_i unnamed
  split at found
  · next indexed => rw [if_neg unnamed, if_pos indexed, found]
  · cases found

/-- A patch of the element a selector goes to, one level at a time. -/
theorem patches_of_patchElement (goes : elementTarget val.type val.elements.length ts sel = target)
    (below : ∀ {val ts patched}, patchValue val ts remaining writeVal = some patched →
      Patches writeVal val ts remaining patched) (ok : patchElement val target remaining writeVal
      (fun child childTs => patchValue child childTs remaining writeVal) = some patched) :
    Patches writeVal val ts (sel :: remaining) patched := by
  obtain ⟨idx, childTs, rfl, ⟨rfl, admitted, rfl⟩ | ⟨more, child, childOk, rfl⟩⟩ :=
    patchElement_ok ok
  · exact .element goes admitted
  · exact .descend goes more (below childOk)

theorem patches_of_patchValue (ok : patchValue val ts selectors writeVal = some patched) :
    Patches writeVal val ts selectors patched := by
  induction selectors generalizing val ts patched with
  | nil => cases ok
  | cons sel remaining ih =>
    rw [patchValue] at ok
    split at ok
    · next named => exact patches_of_patchElement (if_pos named) ih ok
    rename_i unnamed
    split at ok
    · next indexed =>
        exact patches_of_patchElement ((if_neg unnamed).trans (if_pos indexed)) ih ok
    rename_i unindexed
    split at ok
    · rename_i range ranged
      obtain ⟨elems, news, rfl, inside, rfl, newsEq, length, rfl⟩ := patchRange_ok ok
      exact .range (not_not.mp unnamed) (Bool.eq_false_of_not_eq_true unindexed) ranged
        inside newsEq length
    · cases ok

theorem Patches.patchValue_eq (patches : Patches writeVal val ts selectors patched) :
    patchValue val ts selectors writeVal = some patched := by
  induction patches with
  | element found admitted =>
    rw [patchValue_of_target found, patchElement, if_pos rfl, if_pos admitted]
  | descend found more below ih =>
    rw [patchValue_of_target found, patchElement, if_neg more, ih]
  | range unnamed unindexed ranged inside newsEq length =>
    simp [patchValue, unnamed, unindexed, ranged, patchRange, inside, newsEq, length]

end Patches

/-! ## The lens laws -/

section Laws

variable {val writeVal patched : Value} {ts : Option TypeSpec} {sel : AccessSelectorWire}
  {remaining selectors : List AccessSelectorWire}

/-- Index, low index and count are Unsigned32. -/
def InUnsigned32 (sel : AccessSelectorWire) : Prop :=
  (0 ≤ sel.index.toInt ∧ sel.index.toInt < 2 ^ 32) ∧
    ∀ range ∈ sel.indexRange, (0 ≤ range.lowIndex.toInt ∧ range.lowIndex.toInt < 2 ^ 32) ∧
      0 ≤ range.numberOfElements.toInt ∧ range.numberOfElements.toInt < 2 ^ 32

variable {length idx : Nat} {range : IndexRangeWire} {childTs : Option TypeSpec}

/-- The end of a range of Unsigned32 bounds does not wrap. -/
theorem range_inside {start count : Int64} (startBound : 0 ≤ start.toInt ∧ start.toInt < 2 ^ 32)
    (countBound : 0 ≤ count.toInt ∧ count.toInt < 2 ^ 32)
    (inside : outsideRange start count length = false) :
    (start + count).toInt = start.toInt + count.toInt ∧
      start.toInt.toNat + count.toInt.toNat ≤ length := by
  have total : (start + count).toInt = start.toInt + count.toInt := by
    rw [Int64.toInt_add, Int.bmod_eq_of_le (by omega) (by omega)]
  simp only [outsideRange, Bool.or_eq_false_iff, decide_eq_false_iff_not, total] at inside
  exact ⟨total, by omega⟩

theorem InUnsigned32.range_inside (bounded : InUnsigned32 sel)
    (ranged : sel.indexRange = some range)
    (inside : outsideRange range.lowIndex range.numberOfElements length = false) :
    range.lowIndex.toInt.toNat + range.numberOfElements.toInt.toNat ≤ length :=
  (Mms.range_inside (bounded.2 range ranged).1 (bounded.2 range ranged).2 inside).2

theorem applyAlternateAccessRead_cons (present : val ≠ .nil) :
    applyAlternateAccessRead val ts (sel :: selectors) =
      applyAlternateAccessRead (applySingleSelector val ts sel).1
        (applySingleSelector val ts sel).2 selectors := by
  cases val <;> first | rfl | exact (present rfl).elim

theorem applyAlternateAccessRead_of_target
    (found : elementTarget val.type val.elements.length ts sel = some (idx, childTs)) :
    applyAlternateAccessRead val ts (sel :: selectors) =
      applyAlternateAccessRead (val.elements.getD idx .nil) childTs selectors := by
  rw [applyAlternateAccessRead_cons (elementTarget_inside found).1.ne_nil,
    applySingleSelector_of_target found]

theorem applyAlternateAccessRead_range {elems : List Value} (unnamed : sel.component = [])
    (unindexed : sel.hasIndex = false) (ranged : sel.indexRange = some range)
    (inside : outsideRange range.lowIndex range.numberOfElements elems.length = false) :
    applyAlternateAccessRead (.array elems) ts [sel] =
      .array ((elems.drop range.lowIndex.toInt.toNat).take range.numberOfElements.toInt.toNat) := by
  simp [applyAlternateAccessRead, applySingleSelector, unnamed, unindexed, ranged, selectRange,
    inside]

/-- A patched element leaves the target of every selector where it was. -/
theorem elementTarget_patched {child : Value}
    (found : elementTarget val.type val.elements.length ts sel = some (idx, childTs)) :
    elementTarget (val.withElements (val.elements.set idx child)).type
        (val.withElements (val.elements.set idx child)).elements.length ts sel =
      some (idx, childTs) := by
  rw [(elementTarget_inside found).1.elements_withElements, Value.type_withElements,
    List.length_set, found]

/-- What is read at the selected place is what was written there. -/
theorem Patches.read_eq (patches : Patches writeVal val ts selectors patched)
    (bounded : ∀ sel ∈ selectors, InUnsigned32 sel) :
    applyAlternateAccessRead patched ts selectors = writeVal := by
  induction patches with
  | element found admitted =>
    obtain ⟨composite, inside⟩ := elementTarget_inside found
    rw [applyAlternateAccessRead_of_target (elementTarget_patched found),
      composite.elements_withElements]
    simp [applyAlternateAccessRead, inside]
  | descend found more below ih =>
    obtain ⟨composite, inside⟩ := elementTarget_inside found
    rw [applyAlternateAccessRead_of_target (elementTarget_patched found),
      composite.elements_withElements]
    simpa [inside] using ih fun sel member => bounded sel (List.mem_cons_of_mem _ member)
  | range unnamed unindexed ranged inside newsEq length =>
    have fits := (bounded _ List.mem_cons_self).range_inside ranged inside
    have count := congrArg Int.toNat length
    rw [Int.toNat_natCast] at count
    rw [applyAlternateAccessRead_range unnamed unindexed ranged
      (by rwa [length_setElements]), ← count, take_drop_setElements (by rwa [count]), newsEq]

/-- A second write overrides the first. -/
theorem Patches.again {later twice : Value} (patches : Patches writeVal val ts selectors patched)
    (bounded : ∀ sel ∈ selectors, InUnsigned32 sel)
    (ok : Patches later patched ts selectors twice) : Patches later val ts selectors twice := by
  induction patches generalizing twice with
  | @element val ts sel idx childTs found admitted =>
    obtain ⟨composite, inside⟩ := elementTarget_inside found
    have now := ok.patchValue_eq
    rw [patchValue_of_target (elementTarget_patched found)] at now
    obtain ⟨_, _, same, ⟨-, admits, rfl⟩ | ⟨more, -⟩⟩ := patchElement_ok now
    · cases same
      rw [composite.elements_withElements, List.set_set, Value.withElements_withElements]
      exact .element found admits
    · exact (more rfl).elim
  | @descend val ts sel idx childTs remaining child found more below ih =>
    obtain ⟨composite, inside⟩ := elementTarget_inside found
    have now := ok.patchValue_eq
    rw [patchValue_of_target (elementTarget_patched found)] at now
    obtain ⟨_, _, same, ⟨last, -⟩ | ⟨-, again, nested, rfl⟩⟩ := patchElement_ok now
    · exact (more last).elim
    · cases same
      rw [composite.elements_withElements] at nested ⊢
      rw [List.set_set, Value.withElements_withElements]
      refine .descend found more (ih (fun sel member =>
        bounded sel (List.mem_cons_of_mem _ member)) (patches_of_patchValue ?_))
      simpa [inside] using nested
  | @range elems ts sel range news unnamed unindexed ranged inside newsEq length =>
    have fits := (bounded _ List.mem_cons_self).range_inside ranged inside
    have now := ok.patchValue_eq
    simp only [patchValue, unnamed, unindexed, ranged, ne_eq, not_true_eq_false, if_false,
      Bool.false_eq_true] at now
    obtain ⟨_, laters, arrays, -, -, latersEq, lengths, rfl⟩ := patchRange_ok now
    cases arrays
    rw [setElements_setElements (by omega) (by omega)]
    exact .range unnamed unindexed ranged inside latersEq lengths

/-- Writing back what was read changes nothing. -/
theorem Patches.eq_of_read (patches : Patches writeVal val ts selectors patched)
    (bounded : ∀ sel ∈ selectors, InUnsigned32 sel)
    (same : writeVal = applyAlternateAccessRead val ts selectors) : patched = val := by
  induction patches with
  | @element val ts sel idx childTs found admitted =>
    obtain ⟨-, inside⟩ := elementTarget_inside found
    rw [applyAlternateAccessRead_of_target found, applyAlternateAccessRead] at same
    rw [same]
    simp [inside, Value.withElements_elements]
  | @descend val ts sel idx childTs remaining child found more below ih =>
    obtain ⟨-, inside⟩ := elementTarget_inside found
    rw [applyAlternateAccessRead_of_target found] at same
    rw [ih (fun sel member => bounded sel (List.mem_cons_of_mem _ member)) same]
    simp [inside, Value.withElements_elements]
  | @range elems ts sel range news unnamed unindexed ranged inside newsEq length =>
    have fits := (bounded _ List.mem_cons_self).range_inside ranged inside
    rw [applyAlternateAccessRead_range unnamed unindexed ranged inside, newsEq] at same
    cases same
    rw [setElements_take_drop fits]

end Laws

/-! ## The frame of a write -/

/-- The node at the end of a path of element indices. -/
def Value.node? : Value → List Nat → Option Value
  | value, [] => some value
  | value, index :: path =>
    match value.elements[index]? with
    | none => none
    | some child => child.node? path

/-- A node without what its elements hold: its type, its element count and its scalar. -/
def Value.head (value : Value) : Value :=
  value.withElements (value.elements.map fun _ => .nil)

/-- The paths to the elements a chain writes. -/
def writtenPaths : Value → Option TypeSpec → List AccessSelectorWire → List (List Nat)
  | _, _, [] => [[]]
  | val, ts, sel :: remaining =>
    match elementTarget val.type val.elements.length ts sel with
    | some (idx, childTs) =>
      (writtenPaths (val.elements.getD idx .nil) childTs remaining).map (idx :: ·)
    | none =>
      match sel.indexRange with
      | some range =>
        (List.range range.numberOfElements.toInt.toNat).map fun index =>
          [range.lowIndex.toInt.toNat + index]
      | none => []

/-- Apart from the written elements the nodes are the same: those that hold no written element
are equal, and those on the way to one keep their type and their element count. -/
def SameOutside (written : List (List Nat)) (patched val : Value) : Prop :=
  ∀ path, (∀ selected ∈ written, ¬ selected <+: path) →
    (patched.node? path).map Value.head = (val.node? path).map Value.head ∧
      ((∀ selected ∈ written, ¬ path <+: selected) → patched.node? path = val.node? path)

section Frame

variable {val writeVal patched child : Value} {ts childTs : Option TypeSpec}
  {selectors : List AccessSelectorWire} {written : List (List Nat)} {idx : Nat}

theorem Value.IsComposite.head_withElements (composite : val.IsComposite) {elements : List Value}
    (length : elements.length = val.elements.length) :
    (val.withElements elements).head = val.head := by
  have nils : elements.map (fun _ => Value.nil) = val.elements.map fun _ => Value.nil := by
    rw [List.map_const', List.map_const', length]
  rw [Value.head, Value.head, composite.elements_withElements, nils,
    Value.withElements_withElements]

/-- Replacing an element by one that is the same outside the written elements. -/
theorem SameOutside.set (composite : val.IsComposite) (inside : idx < val.elements.length)
    (below : SameOutside written child (val.elements.getD idx .nil)) :
    SameOutside (written.map (idx :: ·)) (val.withElements (val.elements.set idx child)) val := by
  intro path clear
  cases path with
  | nil =>
    refine ⟨congrArg some (composite.head_withElements List.length_set), fun untouched => ?_⟩
    have none : written = [] := by
      refine List.eq_nil_iff_forall_not_mem.mpr fun selected member => ?_
      exact untouched _ (List.mem_map_of_mem member) List.nil_prefix
    have same : child = val.elements.getD idx .nil := by
      simpa [Value.node?] using (below [] (by simp [none])).2 (by simp [none])
    rw [same]
    simp [inside, Value.withElements_elements]
  | cons index path =>
    simp only [Value.node?, composite.elements_withElements, List.getElem?_set]
    by_cases here : idx = index
    · subst here
      have element : val.elements[idx]? = some (val.elements.getD idx .nil) := by simp [inside]
      simp only [if_true, inside, element]
      refine (below path fun selected member starts => ?_).imp_right fun same untouched => ?_
      · exact clear _ (List.mem_map_of_mem member) (List.cons_prefix_cons.mpr ⟨rfl, starts⟩)
      · refine same fun selected member ends => ?_
        exact untouched _ (List.mem_map_of_mem member) (List.cons_prefix_cons.mpr ⟨rfl, ends⟩)
    · simp only [if_neg here, implies_true, and_self]

/-- Replacing a range of an array. -/
theorem SameOutside.setElements {elems news : List Value} {start : Nat}
    (inside : start + news.length ≤ elems.length) :
    SameOutside ((List.range news.length).map fun index => [start + index])
      (.array (Mms.setElements elems start news)) (.array elems) := by
  intro path clear
  cases path with
  | nil =>
    refine ⟨congrArg some ?_, fun untouched => ?_⟩
    · have composite : (Value.array elems).IsComposite := .inl rfl
      exact composite.head_withElements (length_setElements elems start news)
    · have empty : news = [] := by
        by_contra filled
        exact untouched [start + 0] (List.mem_map.mpr
          ⟨0, List.mem_range.mpr (List.length_pos_of_ne_nil filled), rfl⟩) List.nil_prefix
      rw [empty, Mms.setElements]
  | cons index path =>
    have outside : ¬ (start ≤ index ∧ index < start + news.length) := by
      intro within
      refine clear [index] (List.mem_map.mpr ⟨index - start, List.mem_range.mpr (by omega), ?_⟩)
        ⟨path, rfl⟩
      rw [Nat.add_sub_cancel' within.1]
    simp only [Value.node?, Value.elements, getElem?_setElements inside, if_neg outside,
      implies_true, and_self]

theorem Patches.sameOutside (patches : Patches writeVal val ts selectors patched)
    (bounded : ∀ sel ∈ selectors, InUnsigned32 sel) :
    SameOutside (writtenPaths val ts selectors) patched val := by
  induction patches with
  | element found admitted =>
    obtain ⟨composite, inside⟩ := elementTarget_inside found
    simp only [writtenPaths, found]
    refine SameOutside.set composite inside fun path clear => ?_
    exact (clear [] (List.mem_singleton.mpr rfl) List.nil_prefix).elim
  | descend found more below ih =>
    obtain ⟨composite, inside⟩ := elementTarget_inside found
    simp only [writtenPaths, found]
    exact SameOutside.set composite inside
      (ih fun sel member => bounded sel (List.mem_cons_of_mem _ member))
  | @range elems ts sel range news unnamed unindexed ranged inside newsEq length =>
    have fits := (bounded _ List.mem_cons_self).range_inside ranged inside
    have count : range.numberOfElements.toInt.toNat = news.length := by omega
    simp only [writtenPaths, elementTarget, unnamed, unindexed, ranged, ne_eq, not_true_eq_false,
      Bool.false_eq_true, if_false, count]
    exact SameOutside.setElements (by omega)

end Frame

end GoMms.Mms
