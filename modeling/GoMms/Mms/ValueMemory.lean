import GoMms.Mms.AlternateAccess

/-!
# Values in memory

`*Value` as the program has it: a struct with all its fields, whose slices are nil or windows on
arrays that may be shared, whose elements are pointers that may be nil or shared, and whose times
have a location. `Equal`, `Clone` and `valueToDataValue` follow the pointers. A pointer represents
a value of the model if it leads to a tree of structs with its contents; what is nil or empty,
shared or not, and in which zone a time is given, is not part of it.
-/

namespace GoMms.Mms

open Berutil Pdu

/-! ## Memory -/

/-- `time.Time`: an instant, and the location in which it is shown. -/
structure Time where
  instant : Instant
  zone : Int
  deriving DecidableEq

/-- `Time.Equal`. -/
def Time.equal (first second : Time) : Bool := first.instant == second.instant

/-- The address of a struct, or nil. -/
abbrev ValuePointer := Option Nat

/-- A slice that is not nil. -/
structure ArrayWindow where
  array : Nat
  offset : Nat
  length : Nat
  deriving DecidableEq

/-- The struct `Value`. -/
structure ValueStruct where
  typ : ValueType
  boolVal : Bool := false
  intVal : Int64 := 0
  uintVal : UInt64 := 0
  floatVal : UInt64 := 0
  bytesVal : Option ArrayWindow := none
  bitLen : Int64 := 0
  stringVal : Octets := []
  timeVal : Time := ⟨.zero, 0⟩
  timeQuality : UInt8 := 0
  binaryTime : Int64 := 0
  elementsVal : Option ArrayWindow := none
  accessErr : Int64 := 0
  oidVal : Option ArrayWindow := none

inductive MemoryObject where
  | value (fields : ValueStruct)
  | bytes (content : Octets)
  | ints (content : List Int64)
  | pointers (content : List ValuePointer)

/-- The objects by address; new ones are appended. -/
abbrev ValueMemory := List MemoryObject

namespace MemoryObject

def asValue : MemoryObject → Option ValueStruct
  | .value fields => some fields
  | _ => none

def asBytes : MemoryObject → Option Octets
  | .bytes content => some content
  | _ => none

def asInts : MemoryObject → Option (List Int64)
  | .ints content => some content
  | _ => none

def asPointers : MemoryObject → Option (List ValuePointer)
  | .pointers content => some content
  | _ => none

end MemoryObject

open MemoryObject (asValue asBytes asInts asPointers)

def structAt (memory : ValueMemory) (address : Nat) : Option ValueStruct :=
  memory[address]?.bind asValue

/-- The elements of a slice; a nil slice has none. -/
def sliceAt {α : Type} (view : MemoryObject → Option (List α)) (memory : ValueMemory) :
    Option ArrayWindow → Option (List α)
  | none => some []
  | some window => do
      let content ← memory[window.array]?.bind view
      if window.offset + window.length ≤ content.length then
        some ((content.drop window.offset).take window.length)
      else none

/-! ## Equal -/

/-- The loop over the elements, which have equal lengths; it stops at the first difference. -/
def equalPointers (equal : ValuePointer → ValuePointer → Option Bool) :
    List ValuePointer → List ValuePointer → Option Bool
  | first :: firsts, second :: seconds =>
    match equal first second with
    | some true => equalPointers equal firsts seconds
    | other => other
  | _, _ => some true

/-- `bytes.Equal`, and the comparison of object identifiers. -/
def equalSlices {α : Type} [BEq α] (view : MemoryObject → Option (List α)) (memory : ValueMemory)
    (first second : Option ArrayWindow) : Option Bool :=
  match sliceAt view memory first, sliceAt view memory second with
  | some first, some second => some (first == second)
  | _, _ => none

/-- The comparison of elements. -/
def equalElementSlices (memory : ValueMemory)
    (equal : ValuePointer → ValuePointer → Option Bool) (first second : Option ArrayWindow) :
    Option Bool :=
  match sliceAt asPointers memory first, sliceAt asPointers memory second with
  | some firsts, some seconds =>
    if firsts.length = seconds.length then equalPointers equal firsts seconds else some false
  | _, _ => none

/-- The `switch` of `Equal`, for two structs of one type. -/
def equalFields (memory : ValueMemory) (equal : ValuePointer → ValuePointer → Option Bool)
    (v other : ValueStruct) : Option Bool :=
  match v.typ with
  | .boolean => some (v.boolVal == other.boolVal)
  | .integer => some (v.intVal == other.intVal)
  | .unsigned => some (v.uintVal == other.uintVal)
  | .float => some (floatsEqual v.floatVal other.floatVal)
  | .bitString =>
    if v.bitLen = other.bitLen then equalSlices asBytes memory v.bytesVal other.bytesVal
    else some false
  | .octetString => equalSlices asBytes memory v.bytesVal other.bytesVal
  | .visibleString | .mmsString => some (v.stringVal == other.stringVal)
  | .utcTime => some (v.timeVal.equal other.timeVal && v.timeQuality == other.timeQuality)
  | .binaryTime => some (v.binaryTime == other.binaryTime)
  | .generalizedTime => some (v.timeVal.equal other.timeVal)
  | .bcd => some (v.intVal == other.intVal)
  | .objectIdentifier => equalSlices asInts memory v.oidVal other.oidVal
  | .real => some (floatsEqual v.floatVal other.floatVal)
  | .booleanArray =>
    if v.bitLen = other.bitLen then equalSlices asBytes memory v.bytesVal other.bytesVal
    else some false
  | .struct | .array => equalElementSlices memory equal v.elementsVal other.elementsVal
  | .dataAccessError => some (v.accessErr == other.accessErr)
  | .namedType => some false

/-- `Equal` down to `levels` levels; `none` if a tree is higher or dangles. -/
def equalAt (memory : ValueMemory) : (levels : Nat) → ValuePointer → ValuePointer → Option Bool
  | _, none, second => some second.isNone
  | _, some _, none => some false
  | 0, some _, some _ => none
  | levels + 1, some first, some second =>
    match structAt memory first, structAt memory second with
    | some v, some other =>
      if v.typ = other.typ then equalFields memory (equalAt memory levels) v other
      else some false
    | _, _ => none

/-! ## Clone -/

/-- A copy of a slice in a new array; a nil slice stays nil. -/
def copySlice {α : Type} (view : MemoryObject → Option (List α)) (store : List α → MemoryObject)
    (memory : ValueMemory) : Option ArrayWindow → Option (Option ArrayWindow × ValueMemory)
  | none => some (none, memory)
  | some window => do
      let content ← sliceAt view memory (some window)
      some (some ⟨memory.length, 0, content.length⟩, memory ++ [store content])

def clonePointers (clone : ValueMemory → ValuePointer → Option (ValuePointer × ValueMemory)) :
    ValueMemory → List ValuePointer → Option (List ValuePointer × ValueMemory)
  | memory, [] => some ([], memory)
  | memory, pointer :: rest => do
      let (copy, memory) ← clone memory pointer
      let (copies, memory) ← clonePointers clone memory rest
      some (copy :: copies, memory)

def cloneElements (clone : ValueMemory → ValuePointer → Option (ValuePointer × ValueMemory))
    (memory : ValueMemory) :
    Option ArrayWindow → Option (Option ArrayWindow × ValueMemory)
  | none => some (none, memory)
  | some window => do
      let pointers ← sliceAt asPointers memory (some window)
      let (copies, memory) ← clonePointers clone memory pointers
      some (some ⟨memory.length, 0, copies.length⟩, memory ++ [.pointers copies])

/-- `Clone` down to `levels` levels; `none` if the tree is higher or dangles. Which of the new
objects gets which address is not that of the source, where the struct comes first. -/
def cloneAt : (levels : Nat) → ValueMemory → ValuePointer → Option (ValuePointer × ValueMemory)
  | _, memory, none => some (none, memory)
  | 0, _, some _ => none
  | levels + 1, memory, some address => do
      let v ← structAt memory address
      let (bytesVal, memory) ← copySlice asBytes .bytes memory v.bytesVal
      let (oidVal, memory) ← copySlice asInts .ints memory v.oidVal
      let (elementsVal, memory) ← cloneElements (cloneAt levels) memory v.elementsVal
      let c : ValueStruct :=
        { v with
          bytesVal := bytesVal
          oidVal := oidVal
          elementsVal := elementsVal }
      some (some memory.length, memory ++ [.value c])

/-! ## valueToDataValue -/

section Conversion

variable (runtime : Runtime)

/-- `valuesToDataValues` from the given index on. -/
def pointersToDataValues (convert : ValuePointer → Option (Except String DataValue)) :
    (index : Nat) → List ValuePointer → Option (Except String (List DataValue))
  | _, [] => some (.ok [])
  | index, pointer :: rest =>
    match convert pointer with
    | none => none
    | some (.error text) => some (.error ("element [" ++ toString index ++ "]: " ++ text))
    | some (.ok element) =>
      match pointersToDataValues convert (index + 1) rest with
      | none => none
      | some (.error text) => some (.error text)
      | some (.ok elements) => some (.ok (element :: elements))

/-- The `switch` of `valueToDataValue`. `MarshalData` takes a time in UTC, so that only the instant
is passed on. -/
def fieldsToDataValue (memory : ValueMemory)
    (convert : ValuePointer → Option (Except String DataValue)) (v : ValueStruct) :
    Option (Except String DataValue) :=
  match v.typ with
  | .boolean => some (.ok (.boolean v.boolVal))
  | .integer => some (.ok (.integer v.intVal))
  | .unsigned => some (.ok (.unsigned v.uintVal))
  | .float =>
    let wide := !float64Eq (runtime.widen (runtime.narrow v.floatVal)) v.floatVal
    some (.ok (.float v.floatVal wide))
  | .bitString => (sliceAt asBytes memory v.bytesVal).map fun b => .ok (.bitString b v.bitLen)
  | .octetString => (sliceAt asBytes memory v.bytesVal).map fun b => .ok (.octetString b)
  | .visibleString => some (.ok (.visibleString v.stringVal))
  | .mmsString => some (.ok (.mmsString v.stringVal))
  | .utcTime => some (.ok (.utcTime v.timeVal.instant v.timeQuality))
  | .binaryTime => some (.ok (.binaryTime v.binaryTime))
  | .array => do
      let pointers ← sliceAt asPointers memory v.elementsVal
      let elems ← pointersToDataValues convert 0 pointers
      some (elems.map .array)
  | .struct => do
      let pointers ← sliceAt asPointers memory v.elementsVal
      let elems ← pointersToDataValues convert 0 pointers
      some (elems.map .struct)
  | .generalizedTime => some (.ok (.generalizedTime v.timeVal.instant))
  | .bcd => some (.ok (.bcd v.intVal))
  | .objectIdentifier => (sliceAt asInts memory v.oidVal).map fun oid => .ok (.objectIdentifier oid)
  | .real => some (.ok (.real v.floatVal))
  | .booleanArray =>
    (sliceAt asBytes memory v.bytesVal).map fun b => .ok (.booleanArray b v.bitLen)
  | .dataAccessError =>
    some (.error "cannot marshal DataAccessError as writable MMS Data value")
  | .namedType => some (.error ("unsupported value type " ++ ValueType.string v.typ))

/-- `valueToDataValue` down to `levels` levels. -/
def dataValueAt (memory : ValueMemory) :
    (levels : Nat) → ValuePointer → Option (Except String DataValue)
  | _, none => some (.error "nil value")
  | 0, some _ => none
  | levels + 1, some address => do
      let v ← structAt memory address
      fieldsToDataValue runtime memory (dataValueAt memory levels) v

/-- The octets that are sent for a value. -/
def octetsAt (memory : ValueMemory) (levels : Nat) (pointer : ValuePointer) :
    Option (Except String Octets) :=
  (dataValueAt runtime memory levels pointer).map fun converted =>
    converted.bind (marshalData runtime)

end Conversion

/-! ## What a pointer represents -/

/-- The contents of a struct of a type without elements; a time counts as an instant. -/
def leafOf (memory : ValueMemory) (v : ValueStruct) : Option Value :=
  match v.typ with
  | .boolean => some (.boolean v.boolVal)
  | .integer => some (.integer v.intVal)
  | .unsigned => some (.unsigned v.uintVal)
  | .float => some (.float v.floatVal)
  | .bitString => (sliceAt asBytes memory v.bytesVal).map fun b => .bitString b v.bitLen
  | .octetString => (sliceAt asBytes memory v.bytesVal).map .octetString
  | .visibleString => some (.visibleString v.stringVal)
  | .mmsString => some (.mmsString v.stringVal)
  | .utcTime => some (.utcTime v.timeVal.instant v.timeQuality)
  | .binaryTime => some (.binaryTime v.binaryTime)
  | .generalizedTime => some (.generalizedTime v.timeVal.instant)
  | .bcd => some (.bcd v.intVal)
  | .objectIdentifier => (sliceAt asInts memory v.oidVal).map .objectIdentifier
  | .real => some (.real v.floatVal)
  | .booleanArray => (sliceAt asBytes memory v.bytesVal).map fun b => .booleanArray b v.bitLen
  | .dataAccessError => some (.dataAccessError v.accessErr)
  | .array | .struct | .namedType => none

/-- The slice can be read, and its array is not below the address. -/
def SliceFrom {α : Type} (view : MemoryObject → Option (List α)) (memory : ValueMemory) (low : Nat)
    (slice : Option ArrayWindow) (content : List α) : Prop :=
  sliceAt view memory slice = some content ∧ ∀ window ∈ slice, low ≤ window.array

/-- A struct whose slices can be read, with nothing below the address `low`. -/
structure StructFrom (memory : ValueMemory) (low address : Nat) (v : ValueStruct)
    (pointers : List ValuePointer) : Prop where
  above : low ≤ address
  found : structAt memory address = some v
  bytes : ∃ content, SliceFrom asBytes memory low v.bytesVal content
  oid : ∃ content, SliceFrom asInts memory low v.oidVal content
  elements : SliceFrom asPointers memory low v.elementsVal pointers

mutual

/-- The pointer leads to a tree of structs with the contents of the value, all of whose storage is
at `low` or above. Only arrays and structures have elements; storage may be shared. -/
def PointsTo (memory : ValueMemory) (low : Nat) : Value → ValuePointer → Prop
  | .nil, pointer => pointer = none
  | .array elements, pointer =>
    ∃ address v pointers, pointer = some address ∧ StructFrom memory low address v pointers ∧
      v.typ = .array ∧ PointsToAll memory low elements pointers
  | .struct elements, pointer =>
    ∃ address v pointers, pointer = some address ∧ StructFrom memory low address v pointers ∧
      v.typ = .struct ∧ PointsToAll memory low elements pointers
  | leaf, pointer =>
    ∃ address v, pointer = some address ∧ StructFrom memory low address v [] ∧
      leafOf memory v = some leaf

def PointsToAll (memory : ValueMemory) (low : Nat) : List Value → List ValuePointer → Prop
  | [], pointers => pointers = []
  | value :: rest, pointers =>
    ∃ pointer others, pointers = pointer :: others ∧ PointsTo memory low value pointer ∧
      PointsToAll memory low rest others

end

/-- The type of a composite. -/
def Composite.type : Composite → ValueType
  | .array => .array
  | .struct => .struct

mutual

/-- Levels of structs. -/
def Value.levels : Value → Nat
  | .nil => 0
  | .array elements => levelsBelow elements + 1
  | .struct elements => levelsBelow elements + 1
  | _ => 1

def levelsBelow : List Value → Nat
  | [] => 0
  | value :: rest => max value.levels (levelsBelow rest)

end

/-- What can be written to through the pointer: structs and the arrays of their slices. -/
inductive Storage (memory : ValueMemory) : ValuePointer → Nat → Prop
  | struct {address : Nat} : Storage memory (some address) address
  | bytes {address : Nat} {v : ValueStruct} {window : ArrayWindow}
      (found : structAt memory address = some v) (slice : v.bytesVal = some window) :
      Storage memory (some address) window.array
  | oid {address : Nat} {v : ValueStruct} {window : ArrayWindow}
      (found : structAt memory address = some v) (slice : v.oidVal = some window) :
      Storage memory (some address) window.array
  | elements {address : Nat} {v : ValueStruct} {window : ArrayWindow}
      (found : structAt memory address = some v) (slice : v.elementsVal = some window) :
      Storage memory (some address) window.array
  | inside {address other : Nat} {v : ValueStruct} {pointers : List ValuePointer}
      {child : ValuePointer} (found : structAt memory address = some v)
      (slice : sliceAt asPointers memory v.elementsVal = some pointers)
      (member : child ∈ pointers) (deeper : Storage memory child other) :
      Storage memory (some address) other

/-! ## Reading more memory -/

section Append

variable {memory : ValueMemory} {low : Nat}

variable {address : Nat} {v : ValueStruct}

theorem getElem?_append_some {object : MemoryObject} (found : memory[address]? = some object)
    (added : ValueMemory) : (memory ++ added)[address]? = some object := by
  obtain ⟨inside, -⟩ := List.getElem?_eq_some_iff.mp found
  rw [List.getElem?_append_left inside, found]

theorem structAt_append (found : structAt memory address = some v) (added : ValueMemory) :
    structAt (memory ++ added) address = some v := by
  obtain ⟨object, present, seen⟩ := Option.bind_eq_some_iff.mp found
  rw [structAt, getElem?_append_some present added, Option.bind_some, seen]

theorem structAt_lt (found : structAt memory address = some v) : address < memory.length := by
  obtain ⟨object, present, -⟩ := Option.bind_eq_some_iff.mp found
  exact (List.getElem?_eq_some_iff.mp present).1

variable {α : Type} {view : MemoryObject → Option (List α)} {slice : Option ArrayWindow}
  {content : List α}

theorem sliceAt_append (read : sliceAt view memory slice = some content) (added : ValueMemory) :
    sliceAt view (memory ++ added) slice = some content := by
  cases slice with
  | none => exact read
  | some window =>
    obtain ⟨stored, found, rest⟩ := Option.bind_eq_some_iff.mp read
    obtain ⟨object, present, seen⟩ := Option.bind_eq_some_iff.mp found
    rw [sliceAt, getElem?_append_some present added, Option.bind_some, seen]
    exact rest

theorem sliceAt_lt (read : sliceAt view memory slice = some content) :
    ∀ window ∈ slice, window.array < memory.length := by
  rintro window rfl
  obtain ⟨stored, found, -⟩ := Option.bind_eq_some_iff.mp read
  obtain ⟨object, present, -⟩ := Option.bind_eq_some_iff.mp found
  exact (List.getElem?_eq_some_iff.mp present).1

theorem SliceFrom.mono {lower : Nat} (read : SliceFrom view memory low slice content)
    (le : lower ≤ low) (added : ValueMemory) :
    SliceFrom view (memory ++ added) lower slice content :=
  ⟨sliceAt_append read.1 added, fun window member => le.trans (read.2 window member)⟩

theorem StructFrom.mono {lower : Nat} {pointers : List ValuePointer}
    (here : StructFrom memory low address v pointers) (le : lower ≤ low) (added : ValueMemory) :
    StructFrom (memory ++ added) lower address v pointers where
  above := le.trans here.above
  found := structAt_append here.found added
  bytes := here.bytes.imp fun _ read => read.mono le added
  oid := here.oid.imp fun _ read => read.mono le added
  elements := here.elements.mono le added

theorem leafOf_append {leaf : Value} (read : leafOf memory v = some leaf) (added : ValueMemory) :
    leafOf (memory ++ added) v = some leaf := by
  have slices {β : Type} {view : MemoryObject → Option (List β)} {slice : Option ArrayWindow}
      {make : List β → Value} (known : (sliceAt view memory slice).map make = some leaf) :
      (sliceAt view (memory ++ added) slice).map make = some leaf := by
    obtain ⟨content, inner, rfl⟩ := Option.map_eq_some_iff.mp known
    rw [sliceAt_append inner added, Option.map_some]
  unfold leafOf at read ⊢
  split at read
  all_goals first | exact read | exact slices read

end Append

/-! ## Trees -/

section Trees

variable {memory : ValueMemory} {low lower : Nat} {value : Value} {pointer : ValuePointer}

theorem pointsTo_leaf_iff (leaf : value.IsLeaf) :
    PointsTo memory low value pointer ↔
      ∃ address v, pointer = some address ∧ StructFrom memory low address v [] ∧
        leafOf memory v = some value := by
  cases value with
  | nil => exact leaf.elim
  | array elements => exact leaf.elim
  | struct elements => exact leaf.elim
  | _ => exact Iff.rfl

theorem pointsToAll_iff {values : List Value} {pointers : List ValuePointer} :
    PointsToAll memory low values pointers ↔
      List.Forall₂ (PointsTo memory low) values pointers := by
  induction values generalizing pointers with
  | nil => exact List.forall₂_nil_left_iff.symm
  | cons value rest ih =>
    rw [List.forall₂_cons_left_iff]
    constructor
    · rintro ⟨pointer, others, rfl, first, later⟩
      exact ⟨pointer, others, first, ih.mp later, rfl⟩
    · rintro ⟨pointer, others, first, later, rfl⟩
      exact ⟨pointer, others, rfl, first, ih.mpr later⟩

/-- A composite is a struct of its type with pointers to its elements. -/
theorem pointsTo_composite_iff {kind : Composite} {elements : List Value} :
    PointsTo memory low (kind.value elements) pointer ↔
      ∃ address v pointers, pointer = some address ∧ StructFrom memory low address v pointers ∧
        v.typ = kind.type ∧ List.Forall₂ (PointsTo memory low) elements pointers := by
  simp only [← pointsToAll_iff]
  cases kind <;> exact Iff.rfl

/-- A pointer keeps what it represents when memory is added. -/
theorem PointsTo.mono (points : PointsTo memory low value pointer) (le : lower ≤ low)
    (added : ValueMemory) : PointsTo (memory ++ added) lower value pointer := by
  induction value using Value.induction_elements generalizing pointer with
  | nil => exact points
  | leaf value leaf =>
    obtain ⟨address, v, same, here, read⟩ := (pointsTo_leaf_iff leaf).mp points
    exact (pointsTo_leaf_iff leaf).mpr
      ⟨address, v, same, here.mono le added, leafOf_append read added⟩
  | composite kind elements ih =>
    obtain ⟨address, v, pointers, same, here, typ, below⟩ := pointsTo_composite_iff.mp points
    exact pointsTo_composite_iff.mpr ⟨address, v, pointers, same, here.mono le added, typ,
      Tracing.forall₂_imp_of_mem below fun element known _ => ih element known⟩

theorem PointsTo.weaken (points : PointsTo memory low value pointer) (le : lower ≤ low) :
    PointsTo memory lower value pointer := by
  have more := points.mono le []
  rwa [List.append_nil] at more

/-- All storage of a represented value is in memory, at `low` or above; nothing that is added
belongs to it. -/
theorem PointsTo.storage (points : PointsTo memory low value pointer) {added : ValueMemory}
    {address : Nat} (stored : Storage (memory ++ added) pointer address) :
    low ≤ address ∧ address < memory.length := by
  have struct_bounds {place : Nat} {v : ValueStruct} {pointers : List ValuePointer}
      (here : StructFrom memory low place v pointers)
      (below : ∀ child ∈ pointers, Storage (memory ++ added) child address →
        low ≤ address ∧ address < memory.length)
      (reached : Storage (memory ++ added) (some place) address) :
      low ≤ address ∧ address < memory.length := by
    obtain ⟨bytes, bytesRead, bytesFrom⟩ := here.bytes
    obtain ⟨oid, oidRead, oidFrom⟩ := here.oid
    obtain ⟨elementsRead, elementsFrom⟩ := here.elements
    have same {other : ValueStruct} (found : structAt (memory ++ added) place = some other) :
        v = other :=
      Option.some.inj ((structAt_append here.found added).symm.trans found)
    cases reached with
    | struct => exact ⟨here.above, structAt_lt here.found⟩
    | bytes found slice =>
      obtain rfl := same found
      exact ⟨bytesFrom _ slice, sliceAt_lt bytesRead _ slice⟩
    | oid found slice =>
      obtain rfl := same found
      exact ⟨oidFrom _ slice, sliceAt_lt oidRead _ slice⟩
    | elements found slice =>
      obtain rfl := same found
      exact ⟨elementsFrom _ slice, sliceAt_lt elementsRead _ slice⟩
    | inside found slice member deeper =>
      obtain rfl := same found
      obtain rfl := Option.some.inj ((sliceAt_append elementsRead added).symm.trans slice)
      exact below _ member deeper
  induction value using Value.induction_elements generalizing pointer with
  | nil =>
    obtain rfl : pointer = none := points
    cases stored
  | leaf value leaf =>
    obtain ⟨place, v, rfl, here, -⟩ := (pointsTo_leaf_iff leaf).mp points
    exact struct_bounds here (by rintro _ ⟨⟩) stored
  | composite kind elements ih =>
    obtain ⟨place, v, pointers, rfl, here, -, below⟩ := pointsTo_composite_iff.mp points
    refine struct_bounds here (fun child member deeper => ?_) stored
    obtain ⟨element, known, points⟩ := Tracing.exists_of_forall₂_right below member
    exact ih element known points deeper

end Trees

end GoMms.Mms
