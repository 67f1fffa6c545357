import GoMms.Pdu.NamedVarList
import GoMms.Server.Registration
import GoMms.Serverconn.Conn

/-!
# Lists defined by clients

`handleDefineNVL`, `handleGetNVLAttrs` and `handleDeleteNVL` of `server.go`. Lists of the VMD and of
domains live in the registry, association-scoped ones with the connection that defined them. A
list is found as it was defined until a request deletes it by its name.
-/

namespace GoMms.Server

open Servermodel Pdu Serverconn

/-! ## The stores -/

/-- The lists of a connection, next to their names in order. -/
structure AssociationLists (Any : Type) extends AssociationObjects Any where
  assocNVLOrder : List Octets

namespace AssociationLists

variable {Any : Type}

/-- `defineAssocNVL`; `none` is the error of a list that is already defined. -/
def defineAssocNVL (entry : NVLEntry) (sc : AssociationLists Any) :
    Option (AssociationLists Any) :=
  if (sc.assocNVLs.lookup entry.itemID).isSome then none
  else some { sc with
    assocNVLs := sc.assocNVLs.insert entry.itemID entry
    assocNVLOrder := Sorted.insertSorted sc.assocNVLOrder entry.itemID }

/-- `deleteAssocNVL`, which reports whether it deleted a list. -/
def deleteAssocNVL (itemID : Octets) (sc : AssociationLists Any) : Bool × AssociationLists Any :=
  match sc.assocNVLs.lookup itemID with
  | none => (false, sc)
  | some entry =>
    if !entry.deletable then (false, sc)
    else (true, { sc with
      assocNVLs := sc.assocNVLs.erase itemID
      assocNVLOrder := sc.assocNVLOrder.erase itemID })

/-- `deleteAllAssocNVLs`: one deletable list takes all others with it. -/
def deleteAllAssocNVLs (sc : AssociationLists Any) : (Nat × Nat) × AssociationLists Any :=
  let matched := sc.assocNVLs.entries.length
  let deleted := sc.assocNVLs.entries.countP (·.2.deletable)
  if deleted > 0 then ((matched, deleted), { sc with assocNVLs := ∅, assocNVLOrder := [] })
  else ((matched, deleted), sc)

end AssociationLists

/-- The registry and the lists of the connections. -/
structure ListServer (Conn Any : Type) where
  registry : Registry Any (List Octets)
  association : Conn → AssociationLists Any

namespace ListServer

variable {Conn Any : Type} [DecidableEq Conn]

/-- The objects of the connection in the context of a request. -/
def connection (server : ListServer Conn Any) (conn : Option Conn) :
    Option (AssociationObjects Any) :=
  conn.map fun sc => (server.association sc).toAssociationObjects

def setAssociation (server : ListServer Conn Any) (sc : Conn) (lists : AssociationLists Any) :
    ListServer Conn Any :=
  { server with association := Function.update server.association sc lists }

@[simp] theorem association_setAssociation (server : ListServer Conn Any) (sc : Conn)
    (lists : AssociationLists Any) :
    (server.setAssociation sc lists).association = Function.update server.association sc lists :=
  rfl

/-- The lookup by the name on the wire that all requests share. -/
def find (server : ListServer Conn Any) (conn : Option Conn) (name : ObjectNameWire) :
    Option NVLEntry :=
  lookupNVL (server.connection conn) server.registry name

end ListServer

/-! ## The handlers -/

def errObjectNonExistent : HandlerResult := .serviceError 7 2
def errInvalidRequest : HandlerResult := .serviceError 4 0
def errUnsupportedFeature : HandlerResult := .serviceError 0 5

def tagNumDefineNamedVariableList : Int64 := 11
def tagNumGetNamedVariableListAttrs : Int64 := 12
def tagNumDeleteNamedVariableList : Int64 := 13

def entryName (name : ObjectNameWire) : EntryName := ⟨name.scope, name.domainID, name.itemID⟩

def memberFromWire (spec : VariableSpecWire) : NVLVariable :=
  { toEntryName := entryName spec.name
    alternateAccess := spec.alternateAccess.map fun sel =>
      { component := sel.component
        hasIndex := sel.hasIndex
        index := sel.index
        indexRange := sel.indexRange.map fun range => ⟨range.lowIndex, range.numberOfElements⟩ } }

/-- The entry a request defines. -/
def definedEntry (req : DefineNVLRequest) : NVLEntry :=
  { toEntryName := entryName req.listName
    deletable := true
    members := req.vars.map memberFromWire }

namespace ListServer

variable {Conn Any : Type} [DecidableEq Conn]

def handleDefineNVL (conn : Option Conn) (body : Octets) (server : ListServer Conn Any) :
    HandlerResult × ListServer Conn Any :=
  match unmarshalDefineNVLRequest body with
  | .error _ => (errInvalidRequest, server)
  | .ok req =>
    if req.listName.scope = scopeAssociation then
      match conn with
      | none => (errUnsupportedFeature, server)
      | some sc =>
        match (server.association sc).defineAssocNVL (definedEntry req) with
        | none => (errObjectNonExistent, server)
        | some lists =>
          (.response tagNumDefineNamedVariableList false [], server.setAssociation sc lists)
    else
      let (result, registry, _) := server.registry.defineNVL listOps (definedEntry req) ()
      match result with
      | .error _ => (errObjectNonExistent, { server with registry := registry })
      | .ok () =>
        (.response tagNumDefineNamedVariableList false [], { server with registry := registry })

def handleGetNVLAttrs (conn : Option Conn) (body : Octets) (server : ListServer Conn Any) :
    HandlerResult :=
  match unmarshalGetNVLAttrsRequest body with
  | .error _ => errInvalidRequest
  | .ok listName =>
    match server.find conn listName with
    | none => errObjectNonExistent
    | some entry =>
      match marshalGetNVLAttrsResponse entry.deletable (entry.members.map memberToWire) with
      | .error text => .failure ("marshal get-nvl-attrs response: " ++ text)
      | .ok respBytes => .response tagNumGetNamedVariableListAttrs true respBytes

/-- One name of a specific Delete, with the tallies of matched and deleted lists. -/
def deleteNamed (conn : Option Conn) (state : (Nat × Nat) × ListServer Conn Any)
    (n : ObjectNameWire) : (Nat × Nat) × ListServer Conn Any :=
  let ((matched, deleted), server) := state
  if n.scope = scopeAssociation then
    match conn with
    | none => state
    | some sc =>
      if ((server.association sc).assocNVLs.lookup n.itemID).isSome then
        let (existed, lists) := (server.association sc).deleteAssocNVL n.itemID
        ((matched + 1, deleted + existed.toNat), server.setAssociation sc lists)
      else state
  else if (server.registry.lookupNVL (entryName n)).isSome then
    let (existed, registry, _) := server.registry.deleteNVL listOps (entryName n) ()
    ((matched + 1, deleted + existed.toNat), { server with registry := registry })
  else state

/-- The `switch` of `handleDeleteNVL` on the scope of the request. -/
def deleteScoped (conn : Option Conn) (req : DeleteNVLRequest) (server : ListServer Conn Any) :
    Except HandlerResult ((Nat × Nat) × ListServer Conn Any) :=
  if req.scopeOfDelete = 0 then
    .ok (req.listNames.foldl (deleteNamed conn) ((0, 0), server))
  else if req.scopeOfDelete = 1 then
    match conn with
    | none => .error errUnsupportedFeature
    | some sc =>
      let (tally, lists) := (server.association sc).deleteAllAssocNVLs
      .ok (tally, server.setAssociation sc lists)
  else if req.scopeOfDelete = 2 then
    if req.domainName = [] then .error errInvalidRequest
    else
      let (tally, registry, _) := server.registry.deleteAllDomainNVLs listOps req.domainName ()
      .ok (tally, { server with registry := registry })
  else if req.scopeOfDelete = 3 then
    let (tally, registry, _) := server.registry.deleteAllVMDNVLs listOps ()
    .ok (tally, { server with registry := registry })
  else .error errUnsupportedFeature

def handleDeleteNVL (conn : Option Conn) (body : Octets) (server : ListServer Conn Any) :
    HandlerResult × ListServer Conn Any :=
  match unmarshalDeleteNVLRequest body with
  | .error _ => (errInvalidRequest, server)
  | .ok req =>
    match deleteScoped conn req server with
    | .error refused => (refused, server)
    | .ok ((matched, deleted), server) =>
      match marshalDeleteNVLResponse matched deleted with
      | .error text => (.failure ("marshal delete-nvl response: " ++ text), server)
      | .ok respBytes => (.response tagNumDeleteNamedVariableList true respBytes, server)

end ListServer

/-! ## Requests of all connections -/

inductive ListService where
  | define
  | attributes
  | delete
  deriving DecidableEq, Repr

/-- A request for a list service; `conn` is the connection in its context. -/
structure ListRequest (Conn : Type) where
  conn : Option Conn
  service : ListService
  body : Octets

section Requests

variable {Conn Any : Type} [DecidableEq Conn]

def ListServer.handle (server : ListServer Conn Any) (request : ListRequest Conn) :
    HandlerResult × ListServer Conn Any :=
  match request.service with
  | .define => server.handleDefineNVL request.conn request.body
  | .attributes => (server.handleGetNVLAttrs request.conn request.body, server)
  | .delete => server.handleDeleteNVL request.conn request.body

/-- The server after requests, oldest first. -/
def ListServer.handleAll (server : ListServer Conn Any) (requests : List (ListRequest Conn)) :
    ListServer Conn Any :=
  requests.foldl (fun server request => (server.handle request).2) server

/-- `n`, asked for on `conn`, is not the list `name` of the connection `own`. -/
def Elsewhere (own : Option Conn) (name : ObjectNameWire) (conn : Option Conn)
    (n : ObjectNameWire) : Prop :=
  n ≠ name ∨ n.scope = scopeAssociation ∧ conn ≠ own

/-- The request does not delete the list: if it is a Delete it names other lists. -/
def ListRequest.Spares (own : Option Conn) (name : ObjectNameWire) (request : ListRequest Conn) :
    Prop :=
  request.service = .delete → ∀ req, unmarshalDeleteNVLRequest request.body = .ok req →
    req.scopeOfDelete = 0 ∧ ∀ n ∈ req.listNames, Elsewhere own name request.conn n

/-- What a definition needs besides a free name. -/
def ListServer.Accepts (server : ListServer Conn Any) (conn : Option Conn)
    (name : ObjectNameWire) : Prop :=
  if name.scope = scopeAssociation then conn.isSome = true
  else name.itemID ≠ [] ∧ (name.scope = scopeDomain →
    name.domainID ≠ [] ∧ server.registry.hasDomain name.domainID = true)

/-- A name as it comes off the wire, without slashes. -/
structure WireName (name : ObjectNameWire) : Prop where
  known : name.KnownScope
  received : name.received = name
  domain : 0x2f ∉ name.domainID
  itemID : 0x2f ∉ name.itemID

end Requests

section Names

variable {name n : ObjectNameWire}

theorem WireName.plain (wire : WireName name) (stored : name.scope ≠ scopeAssociation) :
    Plain (entryName name) := by
  refine ⟨?_, wire.domain, wire.itemID⟩
  rcases wire.known with vmd | inDomain | association
  · refine .inl ⟨vmd, ?_⟩
    rw [entryName, ← wire.received, ObjectNameWire.received, if_neg]
    rw [vmd]
    decide
  · exact .inr inDomain
  · exact (stored association).elim

theorem entryName_injective : Function.Injective entryName := by
  rintro ⟨scope, domainID, itemID⟩ ⟨scope', domainID', itemID'⟩ same
  simpa [entryName] using same

/-- Two association-scoped names off the wire differ in their items. -/
theorem itemID_ne_of_association (named : name.received = name) (asked : n.received = n)
    (own : name.scope = scopeAssociation) (other : n.scope = scopeAssociation) (differ : n ≠ name) :
    name.itemID ≠ n.itemID := by
  intro same
  apply differ
  have outside : scopeAssociation ≠ scopeDomain := by decide
  rw [← named, ← asked, ObjectNameWire.received, ObjectNameWire.received, own, other,
    if_neg outside, if_neg outside]
  cases name
  cases n
  simp_all

end Names

/-! ## What a request leaves of the others' lists -/

section Keeping

variable {Conn Any : Type} {server : ListServer Conn Any} {own : Option Conn}
  {name : ObjectNameWire} {entry : NVLEntry}

theorem find_eq_nvls (stored : name.scope ≠ scopeAssociation) :
    server.find own name = server.registry.nvls.find (entryName name) := by
  rw [ListServer.find, lookupNVL, if_neg stored]
  rfl

theorem find_eq_assocNVLs (association : name.scope = scopeAssociation) (sc : Conn) :
    server.find (some sc) name = (server.association sc).assocNVLs.lookup name.itemID := by
  rw [ListServer.find, lookupNVL, if_pos association]
  rfl

theorem find_none_of_association (association : name.scope = scopeAssociation) :
    server.find none name = none := by
  rw [ListServer.find, lookupNVL, if_pos association]
  rfl

variable {registry : Registry Any (List Octets)} {lists : AssociationLists Any}

/-- A list changes with the registry only if it is in it. -/
theorem find_setRegistry (same : name.scope ≠ scopeAssociation →
      registry.nvls.find (entryName name) = server.registry.nvls.find (entryName name)) :
    ({ server with registry := registry } : ListServer Conn Any).find own name =
      server.find own name := by
  by_cases association : name.scope = scopeAssociation
  · rw [ListServer.find, ListServer.find, lookupNVL, lookupNVL, if_pos association,
      if_pos association]
    rfl
  · rw [find_eq_nvls association, find_eq_nvls association]
    exact same association

theorem accepts_congr {next : ListServer Conn Any} (conn : Option Conn) (name : ObjectNameWire)
    (same : next.registry.domains = server.registry.domains) :
    next.Accepts conn name ↔ server.Accepts conn name := by
  unfold ListServer.Accepts Registry.hasDomain
  rw [same]

variable [DecidableEq Conn]

variable {conn : Option Conn} {state : (Nat × Nat) × ListServer Conn Any}

/-- A list changes with the lists of a connection only if it is one of them. -/
theorem find_setAssociation {sc : Conn} (same : name.scope = scopeAssociation → own = some sc →
      lists.assocNVLs.lookup name.itemID = (server.association sc).assocNVLs.lookup name.itemID) :
    (server.setAssociation sc lists).find own name = server.find own name := by
  by_cases association : name.scope = scopeAssociation
  · cases own with
    | none => rw [find_none_of_association association, find_none_of_association association]
    | some mine =>
      rw [find_eq_assocNVLs association, find_eq_assocNVLs association,
        ListServer.association_setAssociation]
      by_cases here : mine = sc
      · subst here
        rw [Function.update_self]
        exact same association rfl
      · rw [Function.update_of_ne here]
  · rw [find_eq_nvls association, find_eq_nvls association]
    rfl

theorem lookup_defineAssocNVL {sc : AssociationLists Any} {defined : NVLEntry}
    (accepted : sc.defineAssocNVL defined = some lists) (itemID : Octets) :
    sc.assocNVLs.lookup defined.itemID = none ∧
      lists.assocNVLs.lookup itemID =
        if itemID = defined.itemID then some defined else sc.assocNVLs.lookup itemID := by
  unfold AssociationLists.defineAssocNVL at accepted
  split_ifs at accepted with taken
  cases accepted
  refine ⟨by simpa using taken, ?_⟩
  split_ifs with same
  · rw [same, AList.lookup_insert]
  · exact AList.lookup_insert_ne same

theorem lookup_deleteAssocNVL (sc : AssociationLists Any) {itemID other : Octets}
    (differ : other ≠ itemID) :
    (sc.deleteAssocNVL itemID).2.assocNVLs.lookup other = sc.assocNVLs.lookup other := by
  unfold AssociationLists.deleteAssocNVL
  split
  · rfl
  · split_ifs
    · rfl
    · exact AList.lookup_erase_ne differ

theorem find_deleteNVL {removed other : EntryName}
    (differ : EntryKind.nvl.key other ≠ EntryKind.nvl.key removed) :
    (registry.deleteNVL listOps removed ()).2.1.nvls.find other = registry.nvls.find other := by
  unfold Registry.deleteNVL
  split
  · rfl
  · split_ifs
    · rfl
    · exact (Table.find_remove removed other).trans (if_neg differ)

/-- A definition leaves every list that exists. -/
theorem find_handleDefineNVL (conn : Option Conn) (body : Octets)
    (found : server.find own name = some entry) :
    (server.handleDefineNVL conn body).2.find own name = some entry := by
  unfold ListServer.handleDefineNVL
  split
  · exact found
  rename_i req _
  split_ifs with association
  · split
    · exact found
    rename_i sc
    split
    · exact found
    rename_i lists defined
    rw [find_setAssociation, found]
    intro mine here
    obtain ⟨free, stored⟩ := lookup_defineAssocNVL defined name.itemID
    rw [stored, if_neg]
    rintro same
    subst here
    rw [find_eq_assocNVLs mine, same, free] at found
    cases found
  · have kept (stored : name.scope ≠ scopeAssociation) :
        (server.registry.defineNVL listOps (definedEntry req) ()).2.1.nvls.find
          (entryName name) = server.registry.nvls.find (entryName name) := by
      rw [find_eq_nvls stored] at found
      rw [found]
      exact Table.find_register _ found
    simp only
    split <;> exact (find_setRegistry kept).trans found

/-- A Delete of one name leaves the list of another. -/
theorem find_deleteNamed (wire : WireName name) {n : ObjectNameWire} (asked : n.received = n)
    (other : Elsewhere own name conn n) (found : state.2.find own name = some entry) :
    (ListServer.deleteNamed conn state n).2.find own name = some entry := by
  obtain ⟨⟨matched, deleted⟩, server⟩ := state
  simp only [ListServer.deleteNamed]
  split_ifs with association present
  · split
    · exact found
    rename_i sc
    split_ifs
    · rw [find_setAssociation, found]
      intro mine here
      apply lookup_deleteAssocNVL
      rcases other with differ | ⟨-, elsewhere⟩
      · exact itemID_ne_of_association wire.received asked mine association differ
      · exact (elsewhere here.symm).elim
    · exact found
  · rw [find_setRegistry, found]
    intro stored
    apply find_deleteNVL
    intro same
    rcases other with differ | ⟨elsewhere, -⟩
    · exact differ (entryName_injective ((wire.plain stored).key_inj same.symm))
    · exact association elsewhere
  · exact found

theorem find_foldl_deleteNamed (wire : WireName name) {listNames : List ObjectNameWire}
    (asked : ∀ n ∈ listNames, n.received = n) (others : ∀ n ∈ listNames, Elsewhere own name conn n)
    (found : state.2.find own name = some entry) :
    (listNames.foldl (ListServer.deleteNamed conn) state).2.find own name = some entry := by
  induction listNames generalizing state with
  | nil => exact found
  | cons n listNames ih =>
    obtain ⟨first, rest⟩ := List.forall_mem_cons.mp others
    obtain ⟨read, reads⟩ := List.forall_mem_cons.mp asked
    exact ih reads rest (find_deleteNamed wire read first found)

/-- A request that spares a list leaves it as it is. -/
theorem find_handle (wire : WireName name) {request : ListRequest Conn}
    (spares : request.Spares own name) (found : server.find own name = some entry) :
    (server.handle request).2.find own name = some entry := by
  unfold ListServer.handle
  split
  · exact find_handleDefineNVL request.conn request.body found
  · exact found
  rename_i isDelete
  unfold ListServer.handleDeleteNVL
  split
  · exact found
  rename_i req parsed
  obtain ⟨specific, others⟩ := spares isDelete req parsed
  have kept := find_foldl_deleteNamed wire
    (received_of_unmarshalDeleteNVLRequest parsed) others
    (show (((0, 0), server) : (Nat × Nat) × ListServer Conn Any).2.find own name =
      some entry from found)
  simp only [ListServer.deleteScoped, specific, if_true]
  split <;> exact kept

end Keeping

/-! ## Domains stay registered -/

section Domains

variable {Conn Any : Type} [DecidableEq Conn] {server : ListServer Conn Any}

theorem domains_handleDefineNVL (conn : Option Conn) (body : Octets) :
    (server.handleDefineNVL conn body).2.registry.domains = server.registry.domains := by
  unfold ListServer.handleDefineNVL
  split
  · rfl
  · split_ifs
    · split
      · rfl
      · split <;> rfl
    · simp only
      split <;> rfl

theorem domains_deleteNamed (conn : Option Conn) (state : (Nat × Nat) × ListServer Conn Any)
    (n : ObjectNameWire) :
    (ListServer.deleteNamed conn state n).2.registry.domains = state.2.registry.domains := by
  have removed (name : EntryName) :
      (state.2.registry.deleteNVL listOps name ()).2.1.domains = state.2.registry.domains := by
    unfold Registry.deleteNVL
    split
    · rfl
    · split_ifs <;> rfl
  simp only [ListServer.deleteNamed]
  split_ifs
  · split
    · rfl
    · split_ifs <;> rfl
  · exact removed (entryName n)
  · rfl

theorem domains_deleteScoped {conn : Option Conn} {req : DeleteNVLRequest} {tally : Nat × Nat}
    {next : ListServer Conn Any} (done : server.deleteScoped conn req = .ok (tally, next)) :
    next.registry.domains = server.registry.domains := by
  unfold ListServer.deleteScoped at done
  split_ifs at done
  · have kept (listNames : List ObjectNameWire) (state : (Nat × Nat) × ListServer Conn Any) :
        (listNames.foldl (ListServer.deleteNamed conn) state).2.registry.domains =
          state.2.registry.domains := by
      induction listNames generalizing state with
      | nil => rfl
      | cons n listNames ih => exact (ih _).trans (domains_deleteNamed conn state n)
    have whole := kept req.listNames ((0, 0), server)
    rwa [Except.ok.inj done] at whole
  · split at done
    · cases done
    · cases done
      rfl
  · cases done
    rfl
  · cases done
    rfl

theorem domains_handle (request : ListRequest Conn) :
    (server.handle request).2.registry.domains = server.registry.domains := by
  unfold ListServer.handle
  split
  · exact domains_handleDefineNVL request.conn request.body
  · rfl
  · unfold ListServer.handleDeleteNVL
    split
    · rfl
    · split
      · rfl
      rename_i done
      split <;> exact domains_deleteScoped done

end Domains

/-! ## Defining and deleting -/

def defineAccepted : HandlerResult := .response tagNumDefineNamedVariableList false []

section Defining

variable {Conn Any : Type} [DecidableEq Conn] {server : ListServer Conn Any} {conn : Option Conn}
  {body : Octets}

variable {req : DefineNVLRequest}

/-- A definition is accepted exactly for an acceptable name that is free. -/
theorem handleDefineNVL_accepted_iff (parsed : unmarshalDefineNVLRequest body = .ok req) :
    (server.handleDefineNVL conn body).1 = defineAccepted ↔
      server.Accepts conn req.listName ∧ server.find conn req.listName = none := by
  simp only [ListServer.handleDefineNVL, parsed, ListServer.Accepts]
  split_ifs with association
  · cases conn with
    | none => exact iff_of_false nofun fun ⟨absent, _⟩ => nomatch absent
    | some sc =>
      rw [find_eq_assocNVLs association]
      have named : (definedEntry req).itemID = req.listName.itemID := rfl
      simp only [AssociationLists.defineAssocNVL]
      split_ifs with taken
      · refine iff_of_false nofun ?_
        rintro ⟨-, free⟩
        rw [named, free] at taken
        cases taken
      · rw [named] at taken
        exact iff_of_true rfl ⟨rfl, by simpa using taken⟩
  · rw [find_eq_nvls association]
    have checked := @Table.register_ok_iff _ _ server.registry.nvls server.registry.domains
      (definedEntry req)
    have result : (server.registry.defineNVL listOps (definedEntry req) ()).1 =
        (server.registry.nvls.register listOps server.registry.domains (definedEntry req) ()).1 :=
      rfl
    rw [← result] at checked
    split
    · rename_i refused
      refine iff_of_false nofun ?_
      rintro ⟨⟨item, inDomain⟩, free⟩
      have accepted := checked.mpr ⟨item, inDomain, free⟩
      rw [refused] at accepted
      cases accepted
    rename_i accepted
    obtain ⟨item, inDomain, free⟩ := checked.mp accepted
    exact iff_of_true rfl ⟨⟨item, inDomain⟩, free⟩

/-- An accepted definition is found. -/
theorem find_of_defineAccepted {opened : ListServer Conn Any}
    (parsed : unmarshalDefineNVLRequest body = .ok req)
    (accepted : server.handleDefineNVL conn body = (defineAccepted, opened)) :
    opened.find conn req.listName = some (definedEntry req) := by
  simp only [ListServer.handleDefineNVL, parsed] at accepted
  split_ifs at accepted with association
  · split at accepted
    · cases accepted
    rename_i sc
    split at accepted
    · cases accepted
    rename_i lists defined
    cases accepted
    have named : (definedEntry req).itemID = req.listName.itemID := rfl
    rw [find_eq_assocNVLs association, ListServer.association_setAssociation,
      Function.update_self, (lookup_defineAssocNVL defined _).2, if_pos named.symm]
  · split at accepted
    · cases accepted
    rename_i stored
    cases accepted
    rw [find_eq_nvls association]
    have added := (Table.register_ok server.registry.domains stored).2
    exact (congrArg (·.find (entryName req.listName)) added).trans
      ((Table.find_add (definedEntry req) (entryName req.listName)).trans (if_pos rfl))

/-- Deleting a deletable list by its name. -/
theorem find_deleteNamed_self {name : ObjectNameWire} {entry : NVLEntry}
    (found : server.find conn name = some entry) (deletable : entry.deletable = true) :
    (ListServer.deleteNamed conn ((0, 0), server) name).1 = (1, 1) ∧
      (ListServer.deleteNamed conn ((0, 0), server) name).2.find conn name = none := by
  by_cases association : name.scope = scopeAssociation
  · cases conn with
    | none =>
      rw [find_none_of_association association] at found
      cases found
    | some sc =>
      rw [find_eq_assocNVLs association] at found
      simp only [ListServer.deleteNamed, association, if_true, found, Option.isSome_some,
        AssociationLists.deleteAssocNVL, deletable, Bool.not_true, Bool.false_eq_true, if_false]
      refine ⟨rfl, ?_⟩
      rw [find_eq_assocNVLs association, ListServer.association_setAssociation,
        Function.update_self, AList.lookup_erase]
  · rw [find_eq_nvls association] at found
    have stored : server.registry.lookupNVL (entryName name) = some entry := found
    simp only [ListServer.deleteNamed, association, if_false, stored, Option.isSome_some, if_true,
      Registry.deleteNVL, deletable, Bool.not_true, Bool.false_eq_true]
    refine ⟨rfl, ?_⟩
    rw [find_eq_nvls association]
    exact (Table.find_remove (entryName name) (entryName name)).trans (if_pos rfl)

theorem memberToWire_memberFromWire (spec : VariableSpecWire) :
    memberToWire (memberFromWire spec) = spec := by
  obtain ⟨name, selectors⟩ := spec
  have selector : ∀ sel : AccessSelectorWire, (⟨sel.component, sel.hasIndex, sel.index,
      (sel.indexRange.map fun range => (⟨range.lowIndex, range.numberOfElements⟩ :
        IndexRangeModel)).map fun range => ⟨range.lowIndex, range.numberOfElements⟩⟩ :
      AccessSelectorWire) = sel := by
    rintro ⟨component, hasIndex, index, indexRange⟩
    cases indexRange <;> rfl
  simp only [memberToWire, memberFromWire, entryName, List.map_map, VariableSpecWire.mk.injEq,
    true_and]
  exact (List.map_congr_left fun sel _ => selector sel).trans (List.map_id selectors)

end Defining

/-! ## Lists over whole runs -/

section Runs

variable {Conn Any : Type} [DecidableEq Conn] {server : ListServer Conn Any} {conn : Option Conn}
  {name : ObjectNameWire} {entry : NVLEntry}

theorem find_handleAll (wire : WireName name) {requests : List (ListRequest Conn)}
    (spare : ∀ request ∈ requests, request.Spares conn name)
    (found : server.find conn name = some entry) :
    (server.handleAll requests).find conn name = some entry := by
  induction requests generalizing server with
  | nil => exact found
  | cons request requests ih =>
    obtain ⟨first, rest⟩ := List.forall_mem_cons.mp spare
    exact ih rest (find_handle wire first found)

theorem domains_handleAll (requests : List (ListRequest Conn)) :
    (server.handleAll requests).registry.domains = server.registry.domains := by
  induction requests generalizing server with
  | nil => rfl
  | cons request requests ih => exact ih.trans (domains_handle request)

/-- A Delete request for a deletable list removes it. -/
theorem handleDeleteNVL_self {body : Octets}
    (parsed : unmarshalDeleteNVLRequest body = .ok { listNames := [name] })
    (found : server.find conn name = some entry) (deletable : entry.deletable = true) :
    ∃ payload emptied, server.handleDeleteNVL conn body =
        (.response tagNumDeleteNamedVariableList true payload, emptied) ∧
      emptied.find conn name = none ∧ emptied.registry.domains = server.registry.domains := by
  obtain ⟨tally, gone⟩ := find_deleteNamed_self found deletable
  have done : server.deleteScoped conn { listNames := [name] } =
      .ok ((1, 1), (ListServer.deleteNamed conn ((0, 0), server) name).2) := by
    rw [← tally]
    rfl
  have counted : marshalDeleteNVLResponse 1 1 = .ok [0x80, 0x01, 0x01, 0x81, 0x01, 0x01] := by
    decide +kernel
  refine ⟨[0x80, 0x01, 0x01, 0x81, 0x01, 0x01],
    (ListServer.deleteNamed conn ((0, 0), server) name).2, ?_, gone,
    domains_deleteNamed conn ((0, 0), server) name⟩
  simp only [ListServer.handleDeleteNVL, parsed, done, counted]

end Runs

/-- A named variable list behaves as it was defined. The definition is accepted exactly for an
acceptable free name; from then on, whatever the connections request except a Delete of the
list, its attributes and its members are the ones defined; a Delete by its name removes it, and
the name can be defined again. -/
theorem definedList_behaves {Conn Any : Type} [DecidableEq Conn] {listName : ObjectNameWire}
    {vars : List VariableSpecWire} {defineBody attrsBody deleteBody : Octets}
    (domain : 0x2f ∉ listName.domainID) (itemID : 0x2f ∉ listName.itemID)
    (short : ∀ v ∈ vars, v.ShortComponents)
    (define : Arrives (marshalDefineNamedVarListRequest · listName vars) 11 defineBody)
    (attributes : Arrives (marshalGetNamedVarListAttrsRequest · listName) 12 attrsBody)
    (delete : Arrives (marshalDeleteNamedVarListRequest · [listName]) 13 deleteBody)
    (server : ListServer Conn Any) (conn : Option Conn) :
    ((server.handleDefineNVL conn defineBody).1 = defineAccepted ↔
      server.Accepts conn listName.received ∧ server.find conn listName.received = none) ∧
    ∀ opened, server.handleDefineNVL conn defineBody = (defineAccepted, opened) →
    ∀ requests : List (ListRequest Conn),
      (∀ request ∈ requests, request.Spares conn listName.received) →
      (∃ payload, (opened.handleAll requests).handleGetNVLAttrs conn attrsBody =
          .response tagNumGetNamedVariableListAttrs true payload ∧
        unmarshalGetNamedVarListAttrsResponse payload =
          .ok ⟨true, vars.map VariableSpecWire.received⟩) ∧
      resolveNVLMembers ((opened.handleAll requests).connection conn)
          (opened.handleAll requests).registry listName.received =
        some (vars.map VariableSpecWire.received) ∧
      ∃ payload emptied, (opened.handleAll requests).handleDeleteNVL conn deleteBody =
          (.response tagNumDeleteNamedVariableList true payload, emptied) ∧
        emptied.handleGetNVLAttrs conn attrsBody = errObjectNonExistent ∧
        resolveNVLMembers (emptied.connection conn) emptied.registry listName.received = none ∧
        (emptied.handleDefineNVL conn defineBody).1 = defineAccepted := by
  obtain ⟨defines, entries, encoded, fits⟩ := unmarshalDefineNVLRequest_arrives short define
  have asks := unmarshalGetNVLAttrsRequest_arrives attributes
  have deletes := unmarshalDeleteNVLRequest_arrives delete
  have known : listName.KnownScope := by
    obtain ⟨invokeID, pdu, marshalled, -⟩ := attributes
    simp only [marshalGetNamedVarListAttrsRequest] at marshalled
    split at marshalled
    · cases marshalled
    · next named => exact knownScope_of_encode named
  have wire : WireName listName.received := by
    refine ⟨knownScope_received known, listName.received_received, ?_, ?_⟩ <;>
      unfold ObjectNameWire.received <;> split_ifs <;> first | assumption | simp
  refine ⟨handleDefineNVL_accepted_iff defines, fun opened accepted requests spare => ?_⟩
  have found := find_handleAll wire spare (find_of_defineAccepted defines accepted)
  have acceptable := ((handleDefineNVL_accepted_iff defines).mp (congrArg Prod.fst accepted)).1
  have members : (definedEntry ⟨listName.received, vars.map VariableSpecWire.received⟩).members.map
      memberToWire = vars.map VariableSpecWire.received := by
    rw [definedEntry, List.map_map]
    exact (List.map_congr_left fun spec _ => memberToWire_memberFromWire spec).trans (List.map_id _)
  refine ⟨?_, ?_, ?_⟩
  · obtain ⟨payload, marshalled, decoded⟩ :=
      unmarshalGetNamedVarListAttrsResponse_marshal true encoded short fits
    refine ⟨payload, ?_, decoded⟩
    have flag : (definedEntry ⟨listName.received, vars.map VariableSpecWire.received⟩).deletable =
        true := rfl
    simp only [ListServer.handleGetNVLAttrs, asks, found, members, flag, marshalled]
  · rw [ListServer.find] at found
    simp only [resolveNVLMembers, found, members]
  · obtain ⟨payload, emptied, handled, gone, domains⟩ := handleDeleteNVL_self deletes found rfl
    refine ⟨payload, emptied, handled, ?_, ?_, ?_⟩
    · simp only [ListServer.handleGetNVLAttrs, asks, gone]
    · rw [ListServer.find] at gone
      simp only [resolveNVLMembers, gone]
    · refine (handleDefineNVL_accepted_iff defines).mpr ⟨?_, gone⟩
      refine (accepts_congr conn _ ?_).mpr acceptable
      have defined : (server.handleDefineNVL conn defineBody).2.registry.domains =
          server.registry.domains := domains_handleDefineNVL conn defineBody
      rw [accepted] at defined
      rw [domains, domains_handleAll, defined]

/-! A list of the domain `D` with one member that selects an element. -/

def sampleServer : ListServer Nat Unit :=
  ⟨(registerDomain [0x44] (Registry.new listOps)).2, fun _ => ⟨⟨∅, ∅⟩, []⟩⟩

def sampleListName : ObjectNameWire :=
  { scope := scopeDomain, domainID := [0x44], itemID := [0x4c] }

def sampleMembers : List VariableSpecWire :=
  [⟨{ scope := scopeVMD, itemID := [0x4d] }, [⟨[], true, 3, none⟩]⟩]

def sampleNameBody : Octets := [0xa1, 0x06, 0x1a, 0x01, 0x44, 0x1a, 0x01, 0x4c]

def sampleDefineBody : Octets :=
  sampleNameBody ++ [0xa0, 0x0c, 0x30, 0x0a, 0xa0, 0x03, 0x80, 0x01, 0x4d, 0xa5, 0x03, 0x82, 0x01,
    0x03]

/-- Another connection deletes the list `L` of the VMD in between. -/
theorem definedList_behaves_inDomain :
    ∃ opened payload,
      sampleServer.handleDefineNVL (some 0) sampleDefineBody = (defineAccepted, opened) ∧
      (opened.handleAll [⟨some 1, .delete, [0xa1, 0x03, 0x80, 0x01, 0x4c]⟩]).handleGetNVLAttrs
        (some 0) sampleNameBody = .response tagNumGetNamedVariableListAttrs true payload ∧
      unmarshalGetNamedVarListAttrsResponse payload = .ok ⟨true, sampleMembers⟩ := by
  have define : Arrives (marshalDefineNamedVarListRequest · sampleListName sampleMembers) 11
      sampleDefineBody :=
    arrives_of_marshal 1 0xab (by decide) (by decide +kernel) (by decide +kernel)
  have attributes : Arrives (marshalGetNamedVarListAttrsRequest · sampleListName) 12
      sampleNameBody :=
    arrives_of_marshal 1 0xac (by decide) (by decide +kernel) (by decide +kernel)
  have delete : Arrives (marshalDeleteNamedVarListRequest · [sampleListName]) 13
      (Berutil.encodeTLV 0xa1 sampleNameBody) :=
    arrives_of_marshal 1 0xad (by decide) (by decide +kernel) (by decide +kernel)
  have short : ∀ v ∈ sampleMembers, v.ShortComponents := by
    simp [sampleMembers, VariableSpecWire.ShortComponents]
  obtain ⟨accepted, behaves⟩ := definedList_behaves (by decide) (by decide) short define attributes
    delete sampleServer (some 0)
  have defined : (sampleServer.handleDefineNVL (some 0) sampleDefineBody).1 = defineAccepted := by
    decide +kernel
  have other : ∀ request ∈ [(⟨some 1, .delete, [0xa1, 0x03, 0x80, 0x01, 0x4c]⟩ : ListRequest Nat)],
      request.Spares (some 0) sampleListName.received := by
    rw [List.forall_mem_singleton]
    intro _ req parsed
    have read : unmarshalDeleteNVLRequest [0xa1, 0x03, 0x80, 0x01, 0x4c] =
        .ok { listNames := [{ scope := scopeVMD, itemID := [0x4c] }] } := by
      decide +kernel
    rw [read] at parsed
    cases parsed
    exact ⟨rfl, by simp [Elsewhere, sampleListName, ObjectNameWire.received, scopeVMD, scopeDomain]⟩
  obtain ⟨⟨payload, answered, decoded⟩, -⟩ := behaves _ (Prod.ext defined rfl) _ other
  exact ⟨_, payload, Prod.ext defined rfl, answered, decoded⟩

end GoMms.Server
