import GoMms.Pdu.ObjectName
import GoMms.Servermodel.Representation

/-!
# Registration and resolution of named objects

`server.go`: the application registers variables and lists under public names, and a client asks
for them by the names that come off the wire. The encoding keeps the domain of domain-scoped
names only, and association-scoped names are looked up per connection, so a registered object
can be asked for exactly when its name survives both.
-/

namespace GoMms.Server

open Servermodel Pdu

variable {Any : Type}

/-! ## Names -/

/-- What `validateObjectName` refuses. -/
inductive NameError where
  | emptyItemID
  | domainRequired
  | unknownScope (scope : Int64)
  deriving DecidableEq, Repr

def NameError.text : NameError → String
  | .emptyItemID => "empty ItemID"
  | .domainRequired => "domain scope requires non-empty Domain"
  | .unknownScope scope => "unknown scope " ++ toString scope

def validateObjectName (name : EntryName) : Except NameError Unit :=
  if name.itemID = [] then .error .emptyItemID
  else if name.scope = 0 ∨ name.scope = 2 then .ok ()
  else if name.scope = 1 then if name.domain = [] then .error .domainRequired else .ok ()
  else .error (.unknownScope name.scope)

def objectScopeToWireUnchecked (scope : Int64) : Int64 :=
  if scope = 1 then scopeDomain else if scope = 2 then scopeAssociation else scopeVMD

def objectNameToWire (name : EntryName) : ObjectNameWire :=
  { scope := objectScopeToWireUnchecked name.scope
    domainID := name.domain
    itemID := name.itemID }

/-- The name a server receives when a client asks for a public name. -/
def receivedName (name : EntryName) : Except String ObjectNameWire :=
  match encodeObjectName (objectNameToWire name) with
  | .error text => .error text
  | .ok octets => decodeObjectName octets

/-! ## Registration -/

/-- A public variable; `Any` is its type specification and its handlers. -/
structure Variable (Any : Type) where
  name : EntryName
  typeSpec : Any
  deletable : Bool
  read : Any
  write : Any
  deriving DecidableEq

structure IndexRange where
  start : Int64
  count : Int64
  deriving DecidableEq, Repr

structure AccessSelector where
  component : Octets
  index : Option Int64
  indexRange : Option IndexRange
  deriving DecidableEq, Repr

structure VariableSpec where
  name : EntryName
  alternateAccess : List AccessSelector
  deriving DecidableEq, Repr

structure NamedVariableList where
  name : EntryName
  deletable : Bool
  specs : List VariableSpec
  deriving DecidableEq, Repr

/-- Why a registration is refused. -/
inductive RegistrationError where
  | variableName (error : NameError)
  | associationScope (itemID : Octets)
  | typeSpec (itemID : Octets) (text : String)
  | listName (error : NameError)
  | noVariables (itemID : Octets)
  | memberName (itemID : Octets) (index : Nat) (error : NameError)
  | registry (error : RegistryError)
  deriving DecidableEq, Repr

/-- The text of an error; `quote` is `fmt`'s `%q`. -/
def RegistrationError.text (quote : Octets → String) : RegistrationError → String
  | .variableName error => "mms: register variable: " ++ error.text
  | .associationScope itemID =>
    "mms: register variable " ++ quote itemID ++
      ": use ServerConn.RegisterVariable for association-scope variables"
  | .typeSpec itemID text =>
    "mms: register variable " ++ quote itemID ++ ": invalid type spec: " ++ text
  | .listName error => "mms: register NVL: " ++ error.text
  | .noVariables itemID => "mms: register NVL " ++ quote itemID ++ ": no variables"
  | .memberName itemID index error =>
    "mms: register NVL " ++ quote itemID ++ ": variable [" ++ toString index ++ "]: " ++ error.text
  | .registry error => error.text quote

/-- The entry of a variable. `typeSpecToWire` validates the type specification. -/
def variableEntry (typeSpecToWire : Any → Except String Unit) (var : Variable Any) :
    Except RegistrationError (VarEntry Any) :=
  match validateObjectName var.name with
  | .error error => .error (.variableName error)
  | .ok () =>
    if var.name.scope = 2 then .error (.associationScope var.name.itemID)
    else
      match typeSpecToWire var.typeSpec with
      | .error text => .error (.typeSpec var.name.itemID text)
      | .ok () =>
        .ok ⟨var.name, var.typeSpec, var.deletable, var.read, var.write⟩

def AccessSelector.toModel (selector : AccessSelector) : AccessSelectorModel :=
  { component := selector.component
    hasIndex := selector.index.isSome
    index := selector.index.getD 0
    indexRange := selector.indexRange.map fun range => ⟨range.start, range.count⟩ }

/-- The members of a list from position `index` on. -/
def listMembers (itemID : Octets) : (index : Nat) → List VariableSpec →
    Except RegistrationError (List NVLVariable)
  | _, [] => .ok []
  | index, spec :: specs =>
    match validateObjectName spec.name with
    | .error error => .error (.memberName itemID index error)
    | .ok () =>
      match listMembers itemID (index + 1) specs with
      | .error error => .error error
      | .ok members => .ok (⟨spec.name, spec.alternateAccess.map (·.toModel)⟩ :: members)

/-- The entry of a named variable list. -/
def listEntry (list : NamedVariableList) : Except RegistrationError NVLEntry :=
  match validateObjectName list.name with
  | .error error => .error (.listName error)
  | .ok () =>
    if list.specs.length = 0 then .error (.noVariables list.name.itemID)
    else
      match listMembers list.name.itemID 0 list.specs with
      | .error error => .error error
      | .ok members => .ok ⟨list.name, list.deletable, members⟩

/-- `RegisterDomain`. -/
def registerDomain (name : Octets) (registry : Registry Any (List Octets)) :
    Except RegistrationError Unit × Registry Any (List Octets) :=
  let (result, registry, _) := registry.registerDomain listOps name ()
  (result.mapError .registry, registry)

/-- `RegisterVariable`. -/
def registerVariable (typeSpecToWire : Any → Except String Unit) (var : Variable Any)
    (registry : Registry Any (List Octets)) :
    Except RegistrationError Unit × Registry Any (List Octets) :=
  match variableEntry typeSpecToWire var with
  | .error error => (.error error, registry)
  | .ok entry =>
    let (result, registry, _) := registry.registerVariable listOps entry ()
    (result.mapError .registry, registry)

/-- `RegisterNamedVariableList`. -/
def registerNamedVariableList (list : NamedVariableList) (registry : Registry Any (List Octets)) :
    Except RegistrationError Unit × Registry Any (List Octets) :=
  match listEntry list with
  | .error error => (.error error, registry)
  | .ok entry =>
    let (result, registry, _) := registry.defineNVL listOps entry ()
    (result.mapError .registry, registry)

/-- A call of the application. -/
inductive Registration (Any : Type) where
  | domain (name : Octets)
  | var (var : Variable Any)
  | nvl (list : NamedVariableList)

/-- The registry with the variables and lists whose registration returned nil. -/
structure Setup (Any : Type) where
  registry : Registry Any (List Octets)
  vars : List (Variable Any) := []
  lists : List NamedVariableList := []

def Setup.new : Setup Any := { registry := Registry.new listOps }

/-- Make a call and record the object if the call returned nil. -/
def Setup.register (typeSpecToWire : Any → Except String Unit) (setup : Setup Any) :
    Registration Any → Setup Any
  | .domain name => { setup with registry := (registerDomain name setup.registry).2 }
  | .var var =>
    match registerVariable typeSpecToWire var setup.registry with
    | (.ok (), registry) => { setup with registry := registry, vars := setup.vars ++ [var] }
    | (.error _, registry) => { setup with registry := registry }
  | .nvl list =>
    match registerNamedVariableList list setup.registry with
    | (.ok (), registry) => { setup with registry := registry, lists := setup.lists ++ [list] }
    | (.error _, registry) => { setup with registry := registry }

/-- Make the calls one after another on a new server. -/
def Setup.registerAll (typeSpecToWire : Any → Except String Unit)
    (calls : List (Registration Any)) : Setup Any :=
  calls.foldl (Setup.register typeSpecToWire) Setup.new

/-! ## Resolution -/

/-- The association-scoped objects of the connection a request came from. -/
structure AssociationObjects (Any : Type) where
  assocVars : AList fun _ : Octets => VarEntry Any
  assocNVLs : AList fun _ : Octets => NVLEntry

/-- `lookupVariable` of the name on the wire; the connection is the one in the context. -/
def lookupVariable (connection : Option (AssociationObjects Any))
    (registry : Registry Any (List Octets)) (name : ObjectNameWire) : Option (VarEntry Any) :=
  if name.scope = scopeAssociation then
    connection.bind fun objects => objects.assocVars.lookup name.itemID
  else registry.lookupVariable ⟨name.scope, name.domainID, name.itemID⟩

/-- The lookup of `resolveNVLMembers`. -/
def lookupNVL (connection : Option (AssociationObjects Any))
    (registry : Registry Any (List Octets)) (name : ObjectNameWire) : Option NVLEntry :=
  if name.scope = scopeAssociation then
    connection.bind fun objects => objects.assocNVLs.lookup name.itemID
  else registry.lookupNVL ⟨name.scope, name.domainID, name.itemID⟩

def memberToWire (member : NVLVariable) : VariableSpecWire :=
  { name := { scope := member.scope, domainID := member.domain, itemID := member.itemID }
    alternateAccess := member.alternateAccess.map fun selector =>
      { component := selector.component
        hasIndex := selector.hasIndex
        index := selector.index
        indexRange := selector.indexRange.map fun range =>
          ⟨range.lowIndex, range.numberOfElements⟩ } }

/-- `resolveNVLMembers`; `none` is `errObjectNonExistent`. -/
def resolveNVLMembers (connection : Option (AssociationObjects Any))
    (registry : Registry Any (List Octets)) (name : ObjectNameWire) :
    Option (List VariableSpecWire) :=
  match lookupNVL connection registry name with
  | none => none
  | some entry => some (entry.members.map memberToWire)

/-! ## What registered objects stand for -/

/-- The entry a variable is stored as. -/
def Variable.entry (var : Variable Any) : VarEntry Any :=
  ⟨var.name, var.typeSpec, var.deletable, var.read, var.write⟩

def VariableSpec.member (spec : VariableSpec) : NVLVariable :=
  ⟨spec.name, spec.alternateAccess.map (·.toModel)⟩

/-- The entry a list is stored as. -/
def NamedVariableList.entry (list : NamedVariableList) : NVLEntry :=
  ⟨list.name, list.deletable, list.specs.map (·.member)⟩

theorem variableEntry_eq {typeSpecToWire : Any → Except String Unit} {var : Variable Any}
    {entry : VarEntry Any} (valid : variableEntry typeSpecToWire var = .ok entry) :
    entry = var.entry ∧ validateObjectName var.name = .ok () ∧ var.name.scope ≠ 2 := by
  unfold variableEntry at valid
  split at valid
  · cases valid
  rename_i named
  split_ifs at valid with association
  split at valid
  · cases valid
  · cases valid
    exact ⟨rfl, named, association⟩

theorem listMembers_eq {itemID : Octets} {index : Nat} {specs : List VariableSpec}
    {members : List NVLVariable} (valid : listMembers itemID index specs = .ok members) :
    members = specs.map (·.member) := by
  induction specs generalizing index members with
  | nil =>
    cases valid
    rfl
  | cons spec specs ih =>
    unfold listMembers at valid
    split at valid
    · cases valid
    split at valid
    · cases valid
    rename_i rest read
    cases valid
    rw [ih read]
    rfl

theorem listEntry_eq {list : NamedVariableList} {entry : NVLEntry}
    (valid : listEntry list = .ok entry) :
    entry = list.entry ∧ validateObjectName list.name = .ok () := by
  unfold listEntry at valid
  split at valid
  · cases valid
  rename_i named
  split_ifs at valid
  split at valid
  · cases valid
  rename_i members read
  cases valid
  exact ⟨by rw [listMembers_eq read]; rfl, named⟩

/-- A valid name has one of the three scopes. -/
theorem scope_of_validateObjectName {name : EntryName} (valid : validateObjectName name = .ok ()) :
    name.scope = 0 ∨ name.scope = 1 ∨ name.scope = 2 := by
  unfold validateObjectName at valid
  split_ifs at valid with empty free inDomain
  · exact free.imp_right .inr
  · exact .inr (.inl inDomain)

end GoMms.Server
