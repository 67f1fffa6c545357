import GoMms.Foundation.Octets
import GoMms.Foundation.Sorted
import Mathlib.Data.List.AList
import Mathlib.Data.Nat.Digits.Defs

/-!
# The object registry of the server

`internal/servermodel`: domains, named variables and named variable lists in string-keyed maps,
each with sorted lists of names from which pages are cut. The operations are written once over
`SliceOps`, the three things they do with a Go slice of names: with `listOps` a slice is a list,
and the same operations on slices of shared arrays are what concurrent readers see.
-/

namespace GoMms.Servermodel

/-! ## Names and keys -/

/-- What identifies a variable or a list: scope 0 is the VMD, 1 a domain, 2 an association. -/
structure EntryName where
  scope : Int64
  domain : Octets
  itemID : Octets
  deriving DecidableEq, Repr

/-- The two kinds of named entries. -/
inductive EntryKind where
  | var
  | nvl
  deriving DecidableEq, Repr

/-- The decimal digits of a natural number. -/
def decimalNat (number : Nat) : Octets :=
  if number = 0 then [0x30]
  else (Nat.digits 10 number).reverse.map fun digit => UInt8.ofNat (0x30 + digit)

/-- `fmt`'s `%d`. -/
def decimal (value : Int64) : Octets :=
  if value.toInt < 0 then 0x2d :: decimalNat value.toInt.natAbs
  else decimalNat value.toInt.natAbs

/-- `fmt.Sprintf("%d:%s/%s", scope, domain, itemID)`. -/
def EntryName.format (name : EntryName) : Octets :=
  decimal name.scope ++ 0x3a :: name.domain ++ 0x2f :: name.itemID

/-- `varKey` and `nvlKey`, whose keys start with `nvl:`. -/
def EntryKind.key : EntryKind → EntryName → Octets
  | .var, name => name.format
  | .nvl, name => [0x6e, 0x76, 0x6c, 0x3a] ++ name.format

/-! ## Entries -/

/-- A registered variable. `Any` stands for the dynamic type of its type specification and of its
handlers. -/
structure VarEntry (Any : Type) extends EntryName where
  typeSpec : Any
  deletable : Bool
  readFunc : Any
  writeFunc : Any
  deriving DecidableEq

structure IndexRangeModel where
  lowIndex : Int64
  numberOfElements : Int64
  deriving DecidableEq, Repr

structure AccessSelectorModel where
  component : Octets
  hasIndex : Bool
  index : Int64
  indexRange : Option IndexRangeModel
  deriving DecidableEq, Repr

/-- One variable reference of a list. -/
structure NVLVariable extends EntryName where
  alternateAccess : List AccessSelectorModel
  deriving DecidableEq, Repr

structure NVLEntry extends EntryName where
  deletable : Bool
  members : List NVLVariable
  deriving DecidableEq, Repr

/-- An entry type and the kind of its keys. -/
class Entry (E : Type) where
  kind : EntryKind
  name : E → EntryName

instance (Any : Type) : Entry (VarEntry Any) := ⟨.var, VarEntry.toEntryName⟩

instance : Entry NVLEntry := ⟨.nvl, NVLEntry.toEntryName⟩

/-- The map key of an entry. -/
def Entry.key {E : Type} [Entry E] (entry : E) : Octets := (kind E).key (name entry)

/-! ## Errors -/

inductive RegistryError where
  | emptyDomainName
  | domainExists (name : Octets)
  | emptyItemID (kind : EntryKind)
  | domainRequired (kind : EntryKind)
  | domainNotRegistered (domain : Octets)
  | entryExists (kind : EntryKind) (key : Octets)
  deriving DecidableEq, Repr

/-- The text of an error; `quote` is `fmt`'s `%q`. -/
def RegistryError.text (quote : Octets → String) : RegistryError → String
  | .emptyDomainName => "servermodel: empty domain name"
  | .domainExists name => "servermodel: domain " ++ quote name ++ " already registered"
  | .emptyItemID .var => "servermodel: empty variable ItemID"
  | .emptyItemID .nvl => "servermodel: empty NVL ItemID"
  | .domainRequired .var =>
    "servermodel: domain-scoped variable requires non-empty domain"
  | .domainRequired .nvl => "servermodel: domain-scoped NVL requires non-empty domain"
  | .domainNotRegistered domain => "servermodel: domain " ++ quote domain ++ " not registered"
  | .entryExists .var key => "servermodel: variable " ++ quote key ++ " already registered"
  | .entryExists .nvl key => "servermodel: NVL " ++ quote key ++ " already defined"

/-! ## Slices of names -/

/-- What the registry does with a slice of names `L` whose contents live in a heap `H`. -/
structure SliceOps (L : Type) (H : Type) where
  /-- The nil slice. -/
  empty : L
  /-- The names in the slice. -/
  names : L → H → List Octets
  /-- `InsertSorted`. -/
  insertSorted : L → Octets → H → L × H
  /-- `removeFromSorted`. -/
  removeFromSorted : L → Octets → H → L × H
  /-- `sorted[start : start+length]`. -/
  window : L → (start length : Nat) → L

/-- Slices as lists: no array is shared, so there is no heap. -/
def listOps : SliceOps (List Octets) Unit where
  empty := []
  names order _ := order
  insertSorted order name heap := (Sorted.insertSorted order name, heap)
  removeFromSorted order name heap := (order.erase name, heap)
  window order start length := (order.drop start).take length

/-! ## Tables -/

/-- A map of entries with its order lists: one for each domain and one for the VMD. -/
structure Table (E : Type) (L : Type) where
  entries : AList fun _ : Octets => E
  order : AList fun _ : Octets => L
  vmdOrder : L

namespace Table

variable {E : Type} [Entry E] {L : Type} {H : Type} (ops : SliceOps L H)

def new : Table E L := ⟨∅, ∅, ops.empty⟩

/-- `order[domain]`, the nil slice when the domain has no list. -/
def orderOf (table : Table E L) (domain : Octets) : L :=
  (table.order.lookup domain).getD ops.empty

/-- Change the order list that a name belongs to; association scope has none. -/
def updateOrder (update : L → Octets → H → L × H) (name : EntryName) (table : Table E L)
    (heap : H) : Table E L × H :=
  if name.scope = 0 then
    let (vmdOrder, heap) := update table.vmdOrder name.itemID heap
    ({ table with vmdOrder := vmdOrder }, heap)
  else if name.scope = 1 then
    let (order, heap) := update (table.orderOf ops name.domain) name.itemID heap
    ({ table with order := table.order.insert name.domain order }, heap)
  else (table, heap)

/-- Store an entry and insert its name into its order list. -/
def add (entry : E) (table : Table E L) (heap : H) : Table E L × H :=
  updateOrder ops ops.insertSorted (Entry.name entry)
    { table with entries := table.entries.insert (Entry.key entry) entry } heap

/-- Delete the entry of a name and remove the name from its order list. -/
def remove (name : EntryName) (table : Table E L) (heap : H) : Table E L × H :=
  updateOrder ops ops.removeFromSorted name
    { table with entries := table.entries.erase ((Entry.kind E).key name) } heap

/-- `RegisterVariable` and `DefineNVL`. -/
def register (domains : AList fun _ : Octets => Bool) (entry : E) (table : Table E L) (heap : H) :
    Except RegistryError Unit × Table E L × H :=
  let name := Entry.name entry
  let kind := Entry.kind E
  if name.itemID = [] then (.error (.emptyItemID kind), table, heap)
  else if name.scope = 1 ∧ name.domain = [] then (.error (.domainRequired kind), table, heap)
  else if name.scope = 1 ∧ (domains.lookup name.domain).getD false = false then
    (.error (.domainNotRegistered name.domain), table, heap)
  else if (table.entries.lookup (Entry.key entry)).isSome then
    (.error (.entryExists kind (Entry.key entry)), table, heap)
  else
    let (table, heap) := add ops entry table heap
    (.ok (), table, heap)

end Table

/-- One pass of a bulk delete: the tallies of matched and deleted lists, and the table. -/
def deleteOne {L H : Type} (ops : SliceOps L H) (scope : Int64) (domain : Octets)
    (state : (Nat × Nat) × Table NVLEntry L × H) (itemID : Octets) :
    (Nat × Nat) × Table NVLEntry L × H :=
  let ((matched, deleted), table, heap) := state
  let name : EntryName := ⟨scope, domain, itemID⟩
  match table.entries.lookup (EntryKind.nvl.key name) with
  | none => state
  | some entry =>
    if entry.deletable then ((matched + 1, deleted + 1), table.remove ops name heap)
    else ((matched + 1, deleted), table, heap)

/-- The loop of the bulk deletes over a copy of the names. -/
def deleteAll {L H : Type} (ops : SliceOps L H) (scope : Int64) (domain : Octets)
    (names : List Octets) (table : Table NVLEntry L) (heap : H) :
    (Nat × Nat) × Table NVLEntry L × H :=
  names.foldl (deleteOne ops scope domain) ((0, 0), table, heap)

/-! ## The registry -/

structure Registry (Any L : Type) where
  domains : AList fun _ : Octets => Bool
  domainOrder : L
  vars : Table (VarEntry Any) L
  nvls : Table NVLEntry L

/-- A page of names for GetNameList. -/
structure NameListResult (L : Type) where
  names : L
  moreFollows : Bool
  deriving DecidableEq, Repr

def defaultPageSize : Int64 := 100

/-- `paginate` on the names of a slice: where the page starts, its length and whether more names
follow. -/
def pageBounds (sorted : List Octets) (continueAfter : Octets) (maxNames : Int64) :
    Nat × Nat × Bool :=
  let maxNames := (if maxNames ≤ 0 then defaultPageSize else maxNames).toInt.toNat
  let start :=
    if continueAfter = [] then 0
    else
      match sorted.idxOf? continueAfter with
      | some index => index + 1
      | none => Sorted.position sorted continueAfter
  let remaining := sorted.length - start
  if remaining ≤ maxNames then (start, remaining, false) else (start, maxNames, true)

def paginate {L H : Type} (ops : SliceOps L H) (sorted : L) (continueAfter : Octets)
    (maxNames : Int64) (heap : H) : NameListResult L :=
  let (start, length, moreFollows) := pageBounds (ops.names sorted heap) continueAfter maxNames
  ⟨ops.window sorted start length, moreFollows⟩

namespace Registry

variable {Any L H : Type} (ops : SliceOps L H)

/-- `NewRegistry`. -/
def new : Registry Any L := ⟨∅, ops.empty, Table.new ops, Table.new ops⟩

def registerDomain (name : Octets) (registry : Registry Any L) (heap : H) :
    Except RegistryError Unit × Registry Any L × H :=
  if name = [] then (.error .emptyDomainName, registry, heap)
  else if (registry.domains.lookup name).getD false then
    (.error (.domainExists name), registry, heap)
  else
    let (domainOrder, heap) := ops.insertSorted registry.domainOrder name heap
    (.ok (), { registry with
      domains := registry.domains.insert name true
      domainOrder := domainOrder }, heap)

def hasDomain (registry : Registry Any L) (name : Octets) : Bool :=
  (registry.domains.lookup name).getD false

def registerVariable (entry : VarEntry Any) (registry : Registry Any L) (heap : H) :
    Except RegistryError Unit × Registry Any L × H :=
  let (result, vars, heap) := registry.vars.register ops registry.domains entry heap
  (result, { registry with vars := vars }, heap)

def lookupVariable (registry : Registry Any L) (name : EntryName) : Option (VarEntry Any) :=
  registry.vars.entries.lookup (EntryKind.var.key name)

def defineNVL (entry : NVLEntry) (registry : Registry Any L) (heap : H) :
    Except RegistryError Unit × Registry Any L × H :=
  let (result, nvls, heap) := registry.nvls.register ops registry.domains entry heap
  (result, { registry with nvls := nvls }, heap)

def lookupNVL (registry : Registry Any L) (name : EntryName) : Option NVLEntry :=
  registry.nvls.entries.lookup (EntryKind.nvl.key name)

/-- `DeleteNVL`, which reports whether it deleted a list. -/
def deleteNVL (name : EntryName) (registry : Registry Any L) (heap : H) :
    Bool × Registry Any L × H :=
  match registry.lookupNVL name with
  | none => (false, registry, heap)
  | some entry =>
    if !entry.deletable then (false, registry, heap)
    else
      let (nvls, heap) := registry.nvls.remove ops name heap
      (true, { registry with nvls := nvls }, heap)

/-- `DeleteAllDomainNVLs`: the numbers of matched and of deleted lists. -/
def deleteAllDomainNVLs (domain : Octets) (registry : Registry Any L) (heap : H) :
    (Nat × Nat) × Registry Any L × H :=
  let names := ops.names (registry.nvls.orderOf ops domain) heap
  let (tally, nvls, heap) := deleteAll ops 1 domain names registry.nvls heap
  (tally, { registry with nvls := nvls }, heap)

def deleteAllVMDNVLs (registry : Registry Any L) (heap : H) :
    (Nat × Nat) × Registry Any L × H :=
  let names := ops.names registry.nvls.vmdOrder heap
  let (tally, nvls, heap) := deleteAll ops 0 [] names registry.nvls heap
  (tally, { registry with nvls := nvls }, heap)

/-- The order list that a listing reads. -/
inductive Listing where
  | domains
  | domainVariables (domain : Octets)
  | vmdVariables
  | domainNVLs (domain : Octets)
  | vmdNVLs
  deriving DecidableEq, Repr

def orderOf (registry : Registry Any L) : Listing → L
  | .domains => registry.domainOrder
  | .domainVariables domain => registry.vars.orderOf ops domain
  | .vmdVariables => registry.vars.vmdOrder
  | .domainNVLs domain => registry.nvls.orderOf ops domain
  | .vmdNVLs => registry.nvls.vmdOrder

/-- `ListDomains`, `ListDomainVariables`, `ListVMDVariables`, `ListDomainNVLs` and
`ListVMDNVLs`. -/
def list (listing : Listing) (continueAfter : Octets) (maxNames : Int64)
    (registry : Registry Any L) (heap : H) : NameListResult L :=
  paginate ops (registry.orderOf ops listing) continueAfter maxNames heap

end Registry

/-! ## Calls -/

/-- A call that changes the registry. -/
inductive Call (Any : Type) where
  | registerDomain (name : Octets)
  | registerVariable (entry : VarEntry Any)
  | defineNVL (entry : NVLEntry)
  | deleteNVL (name : EntryName)
  | deleteAllDomainNVLs (domain : Octets)
  | deleteAllVMDNVLs

/-- What a call returns. -/
inductive Outcome where
  | error (result : Except RegistryError Unit)
  | deleted (existed : Bool)
  | tally (matched deleted : Nat)

/-- Make a call. -/
def Call.perform {Any L H : Type} (ops : SliceOps L H) (call : Call Any)
    (registry : Registry Any L) (heap : H) : Outcome × Registry Any L × H :=
  match call with
  | .registerDomain name =>
    let (result, next) := registry.registerDomain ops name heap
    (.error result, next)
  | .registerVariable entry =>
    let (result, next) := registry.registerVariable ops entry heap
    (.error result, next)
  | .defineNVL entry =>
    let (result, next) := registry.defineNVL ops entry heap
    (.error result, next)
  | .deleteNVL name =>
    let (existed, next) := registry.deleteNVL ops name heap
    (.deleted existed, next)
  | .deleteAllDomainNVLs domain =>
    let ((matched, deleted), next) := registry.deleteAllDomainNVLs ops domain heap
    (.tally matched deleted, next)
  | .deleteAllVMDNVLs =>
    let ((matched, deleted), next) := registry.deleteAllVMDNVLs ops heap
    (.tally matched deleted, next)

end GoMms.Servermodel
