import GoMms.Pdu.TypeSpecRoundTrip
import GoMms.Server.Access

/-!
# GetVariableAccessAttributes

`RegisterVariable` refuses a type specification that `typeSpecToWire` cannot convert. What it
accepts can always be encoded, but not always be decoded again: the decoder wants an element type
in every array, numbers in the int32 range and at most 32 levels, and registration checks none of
these. A client understands the answer exactly for the complete specifications
(`registered_understood_iff`).
-/

namespace GoMms.Server

open Berutil Mms Pdu Serverconn Servermodel

/-! ## Names -/

def objectScopeToWire (s : Int64) : Except String Int64 :=
  if s = 0 then .ok scopeVMD
  else if s = 1 then .ok scopeDomain
  else if s = 2 then .ok scopeAssociation
  else .error ("mms: unknown scope " ++ toString s)

def objectScopeFromWire (s : Int64) : Except String Int64 :=
  if s = scopeVMD then .ok 0
  else if s = scopeDomain then .ok 1
  else if s = scopeAssociation then .ok 2
  else .error ("mms: unknown wire scope " ++ toString s)

def objectNameFromWire (wn : ObjectNameWire) : Except String EntryName :=
  match objectScopeFromWire wn.scope with
  | .error text => .error text
  | .ok scope => .ok ⟨scope, wn.domainID, wn.itemID⟩

/-- The reference of a named type. -/
def typeNameToWire (typeName : Option EntryName) : Except String TypeSpecWire :=
  match typeName with
  | none => .error "named type with nil TypeName"
  | some name =>
    match validateObjectName name with
    | .error error => .error ("named type: " ++ error.text)
    | .ok () =>
      match objectScopeToWire name.scope with
      | .error text => .error ("named type scope: " ++ text)
      | .ok wireScope =>
        .ok (.typeName (some
          { scope := wireScope, domainID := name.domain, itemID := name.itemID }))

/-! ## Types -/

section Conversion

-- `quote` is `fmt`'s `%q`, which only appears in error texts
variable (quote : Octets → String)

mutual

def typeSpecToWire : TypeSpec → Except String TypeSpecWire
  | ⟨type, elements, count, element, size, formatWidth, exponentWidth, typeName⟩ =>
    match type with
    | .boolean => .ok .boolean
    | .integer => .ok (.integer size)
    | .unsigned => .ok (.unsigned size)
    | .float => .ok (.float formatWidth exponentWidth)
    | .bitString => .ok (.bitString size)
    | .octetString => .ok (.octetString size)
    | .visibleString => .ok (.visibleString size)
    | .mmsString => .ok (.mmsString size)
    | .utcTime => .ok .utcTime
    | .binaryTime => .ok (.binaryTime false)
    | .generalizedTime => .ok .generalizedTime
    | .bcd => .ok (.bcd size)
    | .objectIdentifier => .ok .objID
    | .struct =>
      match elementsToWire elements with
      | .error text => .error text
      | .ok comps => .ok (.struct comps)
    | .array =>
      match element with
      | some element =>
        match typeSpecToWire element with
        | .error text => .error ("array element: " ++ text)
        | .ok elem => .ok (.array count (some elem))
      | none => .ok (.array count none)
    | .namedType => typeNameToWire typeName
    | .dataAccessError | .real | .booleanArray =>
      .error ("unsupported TypeSpec type " ++ type.string ++ " for wire encoding")

def elementsToWire : List (Octets × TypeSpec) → Except String (List (Octets × TypeSpecWire))
  | [] => .ok []
  | (name, type) :: rest =>
    match typeSpecToWire type with
    | .error text => .error ("structure element " ++ quote name ++ ": " ++ text)
    | .ok ct =>
      match elementsToWire rest with
      | .error text => .error text
      | .ok comps => .ok ((name, ct) :: comps)

end

mutual

def typeSpecFromWire : TypeSpecWire → Except String TypeSpec
  | .boolean => .ok { type := .boolean }
  | .bitString size => .ok { type := .bitString, size := size }
  | .integer size => .ok { type := .integer, size := size }
  | .unsigned size => .ok { type := .unsigned, size := size }
  | .float formatWidth expWidth =>
    .ok { type := .float, formatWidth := formatWidth, exponentWidth := expWidth }
  | .octetString size => .ok { type := .octetString, size := size }
  | .visibleString size => .ok { type := .visibleString, size := size }
  | .binaryTime _ => .ok { type := .binaryTime }
  | .mmsString size => .ok { type := .mmsString, size := size }
  | .utcTime => .ok { type := .utcTime }
  | .objID => .ok { type := .objectIdentifier }
  | .generalizedTime => .ok { type := .generalizedTime }
  | .bcd size => .ok { type := .bcd, size := size }
  | .typeName none => .ok { type := .namedType }
  | .typeName (some name) =>
    match objectNameFromWire name with
    | .error text => .error ("typeName: " ++ text)
    | .ok ref => .ok { type := .namedType, typeName := some ref }
  | .array count (some element) =>
    match typeSpecFromWire element with
    | .error text => .error ("array element: " ++ text)
    | .ok elemTS => .ok { type := .array, count := count, element := some elemTS }
  | .array count none => .ok { type := .array, count := count }
  | .struct components =>
    match componentsFromWire 0 components with
    | .error text => .error text
    | .ok elements => .ok { type := .struct, elements := elements }
  | .other tag => .error ("unsupported TypeSpecification tag [" ++ toString tag ++ "]")

/-- The components of a structure from position `index` on. -/
def componentsFromWire : (index : Nat) → List (Octets × TypeSpecWire) →
    Except String (List (Octets × TypeSpec))
  | _, [] => .ok []
  | index, (name, type) :: rest =>
    match typeSpecFromWire type with
    | .error text =>
      .error ("structure component [" ++ toString index ++ "] " ++ quote name ++ ": " ++ text)
    | .ok compTS =>
      match componentsFromWire (index + 1) rest with
      | .error text => .error text
      | .ok elements => .ok ((name, compTS) :: elements)

end

/-! ## The service -/

def unmarshalGetVarAccessRequest (data : Octets) : Except String ObjectNameWire :=
  match decodeTLVAt data 0 with
  | .error text => .error ("getvaraccess request: " ++ text)
  | .ok tlv =>
    if tlv.tag ≠ 0xa0 then
      .error ("getvaraccess request: expected name [0] (0xa0), got 0x" ++ hex02 tlv.tag ++
        " (address not supported)")
    else if tlv.consumed ≠ data.length then
      .error ("getvaraccess request: " ++ toString (data.length - tlv.consumed) ++
        " trailing bytes")
    else decodeObjectName tlv.content

def errAccessDenied : HandlerResult := .serviceError 7 3
def errAccessUnsupported : HandlerResult := .serviceError 7 1

def tagNumGetVariableAccessAttributes : Int64 := 6

variable {Read Write : Type}

def handleGetVarAccess (objects : Objects Read Write) (body : Octets) : HandlerResult :=
  match unmarshalGetVarAccessRequest body with
  | .error _ => errInvalidRequest
  | .ok wireName =>
    match objects.find wireName with
    | none => errObjectNonExistent
    | some entry =>
      match entry.typeSpec with
      | .typeSpec ts =>
        match typeSpecToWire quote ts with
        | .error _ => errAccessUnsupported
        | .ok wireTS =>
          match marshalGetVarAccessResponse quote entry.deletable wireTS with
          | .error text => .failure ("marshal getvaraccess response: " ++ text)
          | .ok respBytes => .response tagNumGetVariableAccessAttributes true respBytes
      | _ => errAccessDenied

/-- The check of `RegisterVariable`. The field of a variable is a type specification; only the
registry stores it under a dynamic type. -/
def checkTypeSpec : Dynamic Read Write → Except String Unit
  | .typeSpec ts =>
    match typeSpecToWire quote ts with
    | .error text => .error text
    | .ok _ => .ok ()
  | _ => .error "no type specification"

end Conversion

end GoMms.Server

namespace GoMms.Mms.TypeSpec

/-! ## Complete specifications -/

/-- The element type of an array, the element types of a structure. -/
def children (ts : TypeSpec) : List TypeSpec :=
  match ts.type with
  | .array => ts.element.toList
  | .struct => ts.elements.map Prod.snd
  | _ => []

/-- The nodes of a specification at a given depth below its root. -/
def nodesAt : (depth : Nat) → TypeSpec → List TypeSpec
  | 0, ts => [ts]
  | depth + 1, ts => ts.children.flatMap (nodesAt depth)

/-- An array has an element type, and the numbers that the type announces are in the int32
range. -/
def Complete (ts : TypeSpec) : Prop :=
  match ts.type with
  | .array => Berutil.InInt32 ts.count ∧ ts.element ≠ none
  | .integer | .unsigned | .bitString | .octetString | .visibleString | .mmsString | .bcd =>
    Berutil.InInt32 ts.size
  | .float => Berutil.InInt32 ts.formatWidth ∧ Berutil.InInt32 ts.exponentWidth
  | _ => True

theorem sizeOf_child_lt {ts child : TypeSpec} (known : child ∈ ts.children) :
    sizeOf child < sizeOf ts := by
  obtain ⟨type, elements, count, element, size, formatWidth, exponentWidth, typeName⟩ := ts
  cases type with
  | array =>
    simp only [children, Option.mem_toList] at known
    subst known
    simp only [mk.sizeOf_spec, Option.some.sizeOf_spec]
    omega
  | struct =>
    simp only [children] at known
    obtain ⟨pair, member, rfl⟩ := List.mem_map.mp known
    have inside := List.sizeOf_lt_of_mem member
    obtain ⟨name, type⟩ := pair
    simp only [mk.sizeOf_spec, Prod.mk.sizeOf_spec] at inside ⊢
    omega
  | _ => cases known

/-- What holds of a type whenever it holds of its children holds of every type. -/
theorem induction_children {motive : TypeSpec → Prop}
    (step : ∀ ts, (∀ child ∈ ts.children, motive child) → motive ts) (ts : TypeSpec) :
    motive ts :=
  step ts fun child known =>
    have := sizeOf_child_lt known
    induction_children step child
termination_by sizeOf ts

end GoMms.Mms.TypeSpec

namespace GoMms.Server

open Berutil Mms Pdu Serverconn Servermodel

section Understood

variable {quote : Octets → String}

theorem elementsToWire_eq_ok {elements : List (Octets × TypeSpec)}
    {comps : List (Octets × TypeSpecWire)} :
    elementsToWire quote elements = .ok comps ↔
      List.Forall₂ (fun element comp => typeSpecToWire quote element.2 = .ok comp.2 ∧
        element.1 = comp.1) elements comps := by
  induction elements generalizing comps with
  | nil => simp [elementsToWire, eq_comm]
  | cons element rest ih =>
    obtain ⟨name, type⟩ := element
    rw [elementsToWire, List.forall₂_cons_left_iff]
    simp only [← ih]
    cases typeSpecToWire quote type <;> cases elementsToWire quote rest <;> simp [eq_comm]

theorem objectScopeToWire_known {scope wireScope : Int64} {domainID itemID : Octets}
    (converted : objectScopeToWire scope = .ok wireScope) :
    (ObjectNameWire.mk wireScope domainID itemID).KnownScope := by
  unfold objectScopeToWire at converted
  split at converted
  · cases converted; exact .inl rfl
  · split at converted
    · cases converted; exact .inr (.inl rfl)
    · split at converted
      · cases converted; exact .inr (.inr rfl)
      · cases converted

variable {wire : TypeSpecWire} {ts : TypeSpec}

theorem typeNameToWire_ok {typeName : Option EntryName}
    (converted : typeNameToWire typeName = .ok wire) :
    ∃ name, wire = .typeName (some name) ∧ name.KnownScope := by
  cases typeName with
  | none => cases converted
  | some name =>
    cases valid : validateObjectName name with
    | error error => simp only [typeNameToWire, valid] at converted; cases converted
    | ok done =>
      cases scope : objectScopeToWire name.scope with
      | error text => simp only [typeNameToWire, valid, scope] at converted; cases converted
      | ok wireScope =>
        simp only [typeNameToWire, valid, scope] at converted
        cases converted
        exact ⟨_, rfl, objectScopeToWire_known scope⟩

/-- A node is converted to a node the decoder accepts exactly if it is complete. Its children are
converted one by one, and the encoder takes it. -/
theorem typeSpecToWire_node (converted : typeSpecToWire quote ts = .ok wire) :
    (wire.Readable ↔ ts.Complete) ∧
      List.Forall₂ (fun child below => typeSpecToWire quote child = .ok below) ts.children
        wire.children ∧ wire.Encodable := by
  obtain ⟨type, elements, count, element, size, formatWidth, exponentWidth, typeName⟩ := ts
  cases type with
  | struct =>
    rw [typeSpecToWire] at converted
    cases comps : elementsToWire quote elements with
    | error text => simp only [comps] at converted; cases converted
    | ok comps' =>
      simp only [comps] at converted
      cases converted
      refine ⟨Iff.rfl, ?_, trivial⟩
      simp only [TypeSpec.children, TypeSpecWire.children, List.forall₂_map_left_iff,
        List.forall₂_map_right_iff]
      exact (elementsToWire_eq_ok.mp comps).imp fun _ _ each => each.1
  | array =>
    cases element with
    | none =>
      cases converted
      exact ⟨by simp [TypeSpec.Complete, TypeSpecWire.Readable], .nil, trivial⟩
    | some element =>
      rw [typeSpecToWire] at converted
      cases elem : typeSpecToWire quote element with
      | error text => simp only [elem] at converted; cases converted
      | ok below =>
        simp only [elem] at converted
        cases converted
        exact ⟨by simp [TypeSpec.Complete, TypeSpecWire.Readable], .cons elem .nil, trivial⟩
  | namedType =>
    obtain ⟨name, rfl, known⟩ := typeNameToWire_ok converted
    exact ⟨iff_of_true ⟨name, rfl, known⟩ trivial, .nil, name, rfl, known⟩
  | dataAccessError | real | booleanArray => cases converted
  | _ =>
    cases converted
    exact ⟨Iff.rfl, .nil, trivial⟩

/-- Conversion keeps the shape of the tree. -/
theorem nodesAt_toWire (converted : typeSpecToWire quote ts = .ok wire) (depth : Nat) :
    List.Forall₂ (fun node image => typeSpecToWire quote node = .ok image) (ts.nodesAt depth)
      (wire.nodesAt depth) := by
  induction depth generalizing ts wire with
  | zero => exact .cons converted .nil
  | succ depth ih =>
    exact List.rel_flatMap (typeSpecToWire_node converted).2.1 fun _ _ below => ih below

/-- The converted tree is readable exactly if every node within the depth limit is complete. -/
theorem readableWithin_iff_complete {levels : Nat}
    (converted : typeSpecToWire quote ts = .ok wire) :
    wire.ReadableWithin levels ↔
      ∀ depth, ∀ node ∈ ts.nodesAt depth, depth < levels ∧ node.Complete := by
  rw [TypeSpecWire.readableWithin_iff]
  refine forall_congr' fun depth => ?_
  refine (Tracing.forall_mem_iff_of_forall₂ (nodesAt_toWire converted depth) ?_).symm
  exact fun node _ image image_eq => and_congr_right fun _ => (typeSpecToWire_node image_eq).1.symm

/-- Whatever was converted can be encoded. -/
theorem typeSpecContent_of_toWire (converted : typeSpecToWire quote ts = .ok wire) :
    ∃ content, typeSpecContent quote wire = .ok content := by
  induction ts using TypeSpec.induction_children generalizing wire with
  | step ts ih =>
    obtain ⟨-, images, encodable⟩ := typeSpecToWire_node converted
    refine typeSpecContent_of_children encodable fun child known => ?_
    obtain ⟨node, member, image_eq⟩ := Tracing.exists_of_forall₂_right images known
    exact ih node member image_eq

theorem objectNameFromWire_known {name : ObjectNameWire} (known : name.KnownScope) :
    ∃ ref, objectNameFromWire name = .ok ref := by
  rcases known with scope | scope | scope <;>
    · unfold objectNameFromWire objectScopeFromWire
      rw [scope]
      exact ⟨_, rfl⟩

theorem componentsFromWire_eq_ok {index : Nat} {components : List (Octets × TypeSpecWire)}
    {elements : List (Octets × TypeSpec)} :
    componentsFromWire quote index components = .ok elements ↔
      List.Forall₂ (fun component element => typeSpecFromWire quote component.2 = .ok element.2 ∧
        component.1 = element.1) components elements := by
  induction components generalizing index elements with
  | nil => simp [componentsFromWire, eq_comm]
  | cons component rest ih =>
    obtain ⟨name, type⟩ := component
    rw [componentsFromWire, List.forall₂_cons_left_iff]
    simp only [← @ih (index + 1)]
    cases typeSpecFromWire quote type <;> cases componentsFromWire quote (index + 1) rest <;>
      simp [eq_comm]

/-- The client converts whatever it has decoded. -/
theorem typeSpecFromWire_received {levels : Nat} {wire : TypeSpecWire}
    (readable : wire.ReadableWithin levels) :
    ∃ ts, typeSpecFromWire quote wire.received = .ok ts := by
  induction levels generalizing wire with
  | zero => exact readable.elim
  | succ levels ih =>
    obtain ⟨root, below⟩ := readable
    cases wire with
    | typeName name =>
      obtain ⟨known, present, scope⟩ := root
      obtain rfl : name = some known := present
      obtain ⟨ref, converted⟩ := objectNameFromWire_known (knownScope_received scope)
      exact ⟨_, by rw [TypeSpecWire.received, Option.map_some, typeSpecFromWire, converted]⟩
    | array count element =>
      obtain ⟨type, rfl⟩ := Option.ne_none_iff_exists'.mp root.2
      obtain ⟨ts, converted⟩ := ih (below type (by simp [TypeSpecWire.children]))
      exact ⟨_, by rw [TypeSpecWire.received, typeSpecFromWire, converted]⟩
    | struct components =>
      have each : ∃ elements, componentsFromWire quote 0
          (TypeSpecWire.receivedComponents components) = .ok elements := by
        simp only [componentsFromWire_eq_ok, Tracing.exists_forall₂_iff, receivedComponents_eq,
          List.forall_mem_map]
        intro source known
        obtain ⟨ts, converted⟩ := ih (below source.2 (List.mem_map_of_mem known))
        exact ⟨(source.1, ts), converted, rfl⟩
      obtain ⟨elements, converted⟩ := each
      exact ⟨_, by rw [TypeSpecWire.received, typeSpecFromWire, converted]⟩
    | other tag => exact root.elim
    | _ => exact ⟨_, rfl⟩

/-- An encoded specification that fits is decoded and converted exactly if it is readable. -/
theorem understood_iff {content : Octets} (deletable : Bool)
    (encoded : typeSpecContent quote wire = .ok content)
    (short : (encodeTLV wire.tag content).length < maxContent) :
    (∃ result ts, unmarshalGetVarAccessResponse
        (encodeTLV 0x80 [if deletable then 0xff else 0x00] ++
          encodeTLV 0xa2 (encodeTLV wire.tag content)) = .ok result ∧
        typeSpecFromWire quote result.typeSpec = .ok ts) ↔
      wire.ReadableWithin 33 := by
  have content_short : content.length < maxContent :=
    (length_le_encodeTLV wire.tag content).trans_lt short
  rw [unmarshalGetVarAccessResponse_encode deletable short]
  have accepted {image : TypeSpecWire} : decodeTypeSpec (encodeTLV wire.tag content) = .ok image ↔
      wire.ReadableWithin 33 ∧ image = wire.received :=
    decodeTypeSpecWithDepth_encode_iff encoded content_short
  constructor
  · rintro ⟨result, ts, decoded, -⟩
    cases read : decodeTypeSpec (encodeTLV wire.tag content) with
    | error text => simp only [read] at decoded; cases decoded
    | ok image => exact (accepted.mp read).1
  · intro readable
    obtain ⟨ts, converted⟩ := @typeSpecFromWire_received quote _ _ readable
    exact ⟨⟨deletable, wire.received⟩, ts, by rw [accepted.mpr ⟨readable, rfl⟩], converted⟩

/-- What registration accepts, conversion accepts. -/
theorem typeSpecToWire_of_registerVariable {Read Write : Type} {var : Variable (Dynamic Read Write)}
    {registry : Registry (Dynamic Read Write) (List Octets)} (typed : var.typeSpec = .typeSpec ts)
    (accepted : (registerVariable (checkTypeSpec quote) var registry).1 = .ok ()) :
    ∃ wire, typeSpecToWire quote ts = .ok wire := by
  cases converted : typeSpecToWire quote ts with
  | ok wire => exact ⟨wire, rfl⟩
  | error text =>
    have refused : checkTypeSpec quote var.typeSpec = .error text := by
      rw [typed, checkTypeSpec, converted]
    unfold registerVariable variableEntry at accepted
    rw [refused] at accepted
    split at accepted
    · cases accepted
    rename_i entry_eq
    split at entry_eq
    · cases entry_eq
    · split at entry_eq <;> cases entry_eq

/-- A registered variable is always answered for, and the client understands the answer exactly
if every node of the type is complete and none is deeper than the decoder goes. -/
theorem registered_understood_iff {Read Write : Type} (quote : Octets → String)
    (var : Variable (Dynamic Read Write)) (ts : TypeSpec)
    (registry : Registry (Dynamic Read Write) (List Octets)) (typed : var.typeSpec = .typeSpec ts)
    (accepted : (registerVariable (checkTypeSpec quote) var registry).1 = .ok ()) :
    ∃ wire payload, typeSpecToWire quote ts = .ok wire ∧
      marshalGetVarAccessResponse quote var.deletable wire = .ok payload ∧
      (∀ (objects : Objects Read Write) name body, unmarshalGetVarAccessRequest body = .ok name →
        objects.find name = some var.entry →
        handleGetVarAccess quote objects body =
          .response tagNumGetVariableAccessAttributes true payload) ∧
      (payload.length < 2 ^ 24 →
        ((∃ result spec, unmarshalGetVarAccessResponse payload = .ok result ∧
            typeSpecFromWire quote result.typeSpec = .ok spec) ↔
          ∀ depth, ∀ node ∈ ts.nodesAt depth, depth ≤ 32 ∧ node.Complete)) := by
  obtain ⟨wire, converted⟩ := typeSpecToWire_of_registerVariable typed accepted
  obtain ⟨content, encoded⟩ := typeSpecContent_of_toWire converted
  have bytes : encodeTypeSpec quote wire = .ok (encodeTLV wire.tag content) := by
    rw [encodeTypeSpec, encoded]
  have marshalled : marshalGetVarAccessResponse quote var.deletable wire =
      .ok (encodeTLV 0x80 [if var.deletable then 0xff else 0x00] ++
        encodeTLV 0xa2 (encodeTLV wire.tag content)) := by
    rw [marshalGetVarAccessResponse, bytes]
  refine ⟨wire, _, converted, marshalled, fun objects name body named found => ?_, fun short => ?_⟩
  · rw [handleGetVarAccess]
    simp only [named, found, Variable.entry, typed, converted, marshalled]
  · have inner : (encodeTLV wire.tag content).length < maxContent := by
      rw [List.length_append] at short
      exact ((length_le_encodeTLV 0xa2 _).trans (Nat.le_add_left _ _)).trans_lt short
    rw [understood_iff _ encoded inner, readableWithin_iff_complete converted]
    simp only [Nat.lt_succ_iff]

section Samples

/-- The check under which registration calls the conversion, with some text for `%q`. -/
abbrev sampleCheck : Dynamic Unit Unit → Except String Unit := checkTypeSpec fun _ => ""

/-- A variable `v` of the given type. -/
def variableOf (ts : TypeSpec) : Variable (Dynamic Unit Unit) :=
  { name := { scope := 0, domain := [], itemID := [0x76] }
    typeSpec := .typeSpec ts
    deletable := false
    read := .readFunc none
    write := .writeFunc none }

theorem registered_understood_integers :
    ∃ wire payload, typeSpecToWire (fun _ => "")
        { type := .array, count := 2, element := some { type := .integer, size := 32 } } =
          .ok wire ∧
      marshalGetVarAccessResponse (fun _ => "") false wire = .ok payload ∧
      (payload.length < 2 ^ 24 → ∃ result spec,
        unmarshalGetVarAccessResponse payload = .ok result ∧
          typeSpecFromWire (fun _ => "") result.typeSpec = .ok spec) := by
  obtain ⟨wire, payload, converted, marshalled, -, understood⟩ :=
    registered_understood_iff (fun _ => "")
      (variableOf { type := .array, count := 2, element := some { type := .integer, size := 32 } })
      _ (Registry.new listOps) rfl (by decide)
  refine ⟨wire, payload, converted, marshalled, fun short => (understood short).mpr ?_⟩
  intro depth node member
  match depth, member with
  | 0, member =>
    obtain rfl := List.mem_singleton.mp member
    exact ⟨by decide, by decide, by simp⟩
  | 1, member =>
    obtain rfl := List.mem_singleton.mp member
    exact ⟨by decide, show InInt32 32 by decide⟩

/-- An array without an element type is registered and answered for, and the decoder refuses the
answer. -/
theorem registered_arrayWithoutElement_notUnderstood :
    (registerVariable sampleCheck (variableOf { type := .array, count := 2 })
        (Registry.new listOps)).1 = .ok () ∧
      ∃ payload, marshalGetVarAccessResponse (fun _ => "") false (.array 2 none) = .ok payload ∧
        typeSpecToWire (fun _ => "") { type := .array, count := 2 } = .ok (.array 2 none) ∧
        payload.length < 2 ^ 24 ∧
        unmarshalGetVarAccessResponse payload =
          .error "pdu: getvaraccess response: array: missing elementType" :=
  ⟨by decide, _, rfl, rfl, by decide, by rfl⟩

end Samples

end Understood

end GoMms.Server
