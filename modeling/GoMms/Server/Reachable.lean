import GoMms.Server.Registration

/-!
# Registered objects are reachable

A client reaches an object by the name that its encoding turns into on the server. When every
registered name belongs to the VMD without a domain or to a domain, and fits the lengths the
decoder reads, each object is found under exactly that name, and so is everything the registry
lists. Registration also accepts VMD names with a domain, which the encoding drops, and
association-scoped lists, which are looked up elsewhere.
-/

namespace GoMms.Server

open Servermodel Pdu Berutil

variable {Any : Type} {typeSpecToWire : Any → Except String Unit} {setup : Setup Any}

/-! ## Names of a slot on the wire -/

/-- The wire name of an item of a scope and domain. -/
def wireName : Slot → Octets → ObjectNameWire
  | .vmd, itemID => { scope := scopeVMD, itemID := itemID }
  | .domain inside, itemID => { scope := scopeDomain, domainID := inside, itemID := itemID }

/-- The name fits the lengths that the decoder reads. -/
def Fits (name : EntryName) : Prop := wireContentLength (objectNameToWire name) < maxContent

instance (name : EntryName) : Decidable (Fits name) := Nat.decLt _ _

theorem objectNameToWire_name (slot : Slot) (itemID : Octets) :
    objectNameToWire (slot.name itemID) = wireName slot itemID := by
  cases slot <;> rfl

theorem receivedName_name {slot : Slot} {itemID : Octets} (fits : Fits (slot.name itemID)) :
    receivedName (slot.name itemID) = .ok (wireName slot itemID) := by
  rw [Fits, objectNameToWire_name] at fits
  cases slot with
  | vmd =>
    obtain ⟨octets, sent, received⟩ := decodeObjectName_encode_vmd rfl fits
    rw [receivedName, objectNameToWire_name, sent]
    exact received
  | domain inside =>
    obtain ⟨octets, sent, received⟩ := decodeObjectName_encode_domain rfl fits
    rw [receivedName, objectNameToWire_name, sent]
    exact received

theorem lookupVariable_wireName (connection : Option (AssociationObjects Any))
    (registry : Registry Any (List Octets)) (slot : Slot) (itemID : Octets) :
    lookupVariable connection registry (wireName slot itemID) =
      registry.vars.find (slot.name itemID) := by
  cases slot <;> rfl

theorem lookupNVL_wireName (connection : Option (AssociationObjects Any))
    (registry : Registry Any (List Octets)) (slot : Slot) (itemID : Octets) :
    lookupNVL connection registry (wireName slot itemID) =
      registry.nvls.find (slot.name itemID) := by
  cases slot <;> rfl

/-! ## The property -/

/-- The name a client sends for the variable is resolved to its entry. -/
def ResolvesVariable (registry : Registry Any (List Octets)) (var : Variable Any) : Prop :=
  ∃ wire, receivedName var.name = .ok wire ∧
    ∀ connection, lookupVariable connection registry wire = some var.entry

/-- The name a client sends for the list is resolved to its entry and so to its members. -/
def ResolvesList (registry : Registry Any (List Octets)) (list : NamedVariableList) : Prop :=
  ∃ wire, receivedName list.name = .ok wire ∧
    ∀ connection, lookupNVL connection registry wire = some list.entry ∧
      resolveNVLMembers connection registry wire = some (list.entry.members.map memberToWire)

/-- Every registered object is reachable, and so is everything on every page of a listing. -/
structure Setup.Reachable (setup : Setup Any) : Prop where
  vars : ∀ var ∈ setup.vars, ResolvesVariable setup.registry var
  lists : ∀ list ∈ setup.lists, ResolvesList setup.registry list
  listedVars : ∀ slot continueAfter maxNames,
    ∀ itemID ∈ (setup.registry.list listOps (slot.listing .var) continueAfter maxNames ()).names,
      ∀ connection, (lookupVariable connection setup.registry (wireName slot itemID)).isSome = true
  listedLists : ∀ slot continueAfter maxNames,
    ∀ itemID ∈ (setup.registry.list listOps (slot.listing .nvl) continueAfter maxNames ()).names,
      ∀ connection,
        (resolveNVLMembers connection setup.registry (wireName slot itemID)).isSome = true

/-! ## The condition -/

def SlashFree (name : EntryName) : Prop := 0x2f ∉ name.domain ∧ 0x2f ∉ name.itemID

/-- The names of a call are without slashes. -/
def Registration.SlashFree : Registration Any → Prop
  | .domain name => 0x2f ∉ name
  | .var item => Server.SlashFree item.name
  | .nvl list => Server.SlashFree list.name

/-- A VMD name has no domain, a list is not association-scoped, and names fit the decoder. -/
def Registration.Addressable : Registration Any → Prop
  | .domain _ => True
  | .var item => (item.name.scope = 0 → item.name.domain = []) ∧ Fits item.name
  | .nvl list => list.name.scope ≠ 2 ∧ (list.name.scope = 0 → list.name.domain = []) ∧
      Fits list.name

instance (call : Registration Any) : Decidable call.SlashFree :=
  match call with
  | .domain name => inferInstanceAs (Decidable (0x2f ∉ name))
  | .var item => inferInstanceAs (Decidable (0x2f ∉ item.name.domain ∧ 0x2f ∉ item.name.itemID))
  | .nvl list => inferInstanceAs (Decidable (0x2f ∉ list.name.domain ∧ 0x2f ∉ list.name.itemID))

instance (call : Registration Any) : Decidable call.Addressable :=
  match call with
  | .domain _ => .isTrue trivial
  | .var item => inferInstanceAs
      (Decidable ((item.name.scope = 0 → item.name.domain = []) ∧ Fits item.name))
  | .nvl list => inferInstanceAs (Decidable (list.name.scope ≠ 2 ∧
      (list.name.scope = 0 → list.name.domain = []) ∧ Fits list.name))

variable {name : EntryName} {E : Type} {table : Table E (List Octets)} {entry : E}

/-- A valid name outside association scope that meets the condition is plain. -/
theorem plain_of_valid (valid : validateObjectName name = .ok ()) (shared : name.scope ≠ 2)
    (bare : name.scope = 0 → name.domain = []) (free : SlashFree name) : Plain name where
  scope := by
    rcases scope_of_validateObjectName valid with vmd | inDomain | association
    · exact .inl ⟨vmd, bare vmd⟩
    · exact .inr inDomain
    · exact (shared association).elim
  domain := free.1
  itemID := free.2

/-! ## What a call does -/

/-- A variable is refused and nothing changes, or it is valid, new and stored. -/
theorem register_var_cases (typeSpecToWire : Any → Except String Unit) (setup : Setup Any)
    (var : Variable Any) :
    setup.register typeSpecToWire (.var var) = setup ∨
      validateObjectName var.name = .ok () ∧ var.name.scope ≠ 2 ∧
        (setup.registry.vars.register listOps setup.registry.domains var.entry ()).1 = .ok () ∧
        setup.register typeSpecToWire (.var var) =
          { setup with
            registry := { setup.registry with
              vars := (setup.registry.vars.register listOps setup.registry.domains
                var.entry ()).2.1 }
            vars := setup.vars ++ [var] } := by
  cases read : variableEntry typeSpecToWire var with
  | error error => exact .inl (by simp only [Setup.register, registerVariable, read])
  | ok entry =>
    obtain ⟨rfl, valid, shared⟩ := variableEntry_eq read
    cases result : (setup.registry.vars.register listOps setup.registry.domains var.entry ()).1 with
    | error error =>
      refine .inl ?_
      simp only [Setup.register, registerVariable, read, Registry.registerVariable, result,
        Except.mapError, Table.register_error setup.registry.domains result]
    | ok done =>
      refine .inr ⟨valid, shared, rfl, ?_⟩
      simp only [Setup.register, registerVariable, read, Registry.registerVariable, result,
        Except.mapError]

/-- A list is refused and nothing changes, or it is valid, new and stored. -/
theorem register_nvl_cases (typeSpecToWire : Any → Except String Unit) (setup : Setup Any)
    (list : NamedVariableList) :
    setup.register typeSpecToWire (.nvl list) = setup ∨
      validateObjectName list.name = .ok () ∧
        (setup.registry.nvls.register listOps setup.registry.domains list.entry ()).1 = .ok () ∧
        setup.register typeSpecToWire (.nvl list) =
          { setup with
            registry := { setup.registry with
              nvls := (setup.registry.nvls.register listOps setup.registry.domains
                list.entry ()).2.1 }
            lists := setup.lists ++ [list] } := by
  cases read : listEntry list with
  | error error => exact .inl (by simp only [Setup.register, registerNamedVariableList, read])
  | ok entry =>
    obtain ⟨rfl, valid⟩ := listEntry_eq read
    cases result : (setup.registry.nvls.register listOps setup.registry.domains
        list.entry ()).1 with
    | error error =>
      refine .inl ?_
      simp only [Setup.register, registerNamedVariableList, read, Registry.defineNVL, result,
        Except.mapError, Table.register_error setup.registry.domains result]
    | ok done =>
      refine .inr ⟨valid, rfl, ?_⟩
      simp only [Setup.register, registerNamedVariableList, read, Registry.defineNVL, result,
        Except.mapError]

/-! ## The invariant -/

/-- A registered name is plain and fits, and its entry is stored under it. -/
structure Stored {E : Type} [Entry E] (table : Table E (List Octets)) (name : EntryName)
    (entry : E) : Prop where
  plain : Plain name
  fits : Fits name
  found : table.find name = some entry

theorem Stored.register [Entry E] (stored : Stored table name entry)
    (domains : AList fun _ : Octets => Bool) (added : E) :
    Stored (table.register listOps domains added ()).2.1 name entry :=
  ⟨stored.plain, stored.fits, Table.find_register domains stored.found⟩

theorem stored_of_register [Entry E] {domains : AList fun _ : Octets => Bool}
    (plain : Plain (Entry.name entry)) (fits : Fits (Entry.name entry))
    (accepted : (table.register listOps domains entry ()).1 = .ok ()) :
    Stored (table.register listOps domains entry ()).2.1 (Entry.name entry) entry := by
  refine ⟨plain, fits, ?_⟩
  rw [(Table.register_ok domains accepted).2, Table.find_add]
  exact if_pos rfl

structure Setup.Kept (setup : Setup Any) : Prop where
  consistent : setup.registry.Consistent
  vars : ∀ var ∈ setup.vars, Stored setup.registry.vars var.name var.entry
  lists : ∀ list ∈ setup.lists, Stored setup.registry.nvls list.name list.entry

theorem Setup.kept_new : (Setup.new : Setup Any).Kept where
  consistent := Registry.consistent_new
  vars _ member := nomatch member
  lists _ member := nomatch member

theorem Setup.Kept.registerDomain (kept : setup.Kept) (name : Octets) :
    (setup.register typeSpecToWire (.domain name)).Kept := by
  have tables : (setup.registry.registerDomain listOps name ()).2.1.vars = setup.registry.vars ∧
      (setup.registry.registerDomain listOps name ()).2.1.nvls = setup.registry.nvls := by
    simp only [Registry.registerDomain]
    split_ifs <;> exact ⟨rfl, rfl⟩
  refine ⟨kept.consistent.registerDomain name, ?_, ?_⟩
  · intro var member
    have stored := kept.vars var member
    rwa [← tables.1] at stored
  · intro list member
    have stored := kept.lists list member
    rwa [← tables.2] at stored

theorem Setup.Kept.registerVariable (kept : setup.Kept) {var : Variable Any}
    (free : (Registration.var var).SlashFree) (addressable : (Registration.var var).Addressable) :
    (setup.register typeSpecToWire (.var var)).Kept := by
  rcases register_var_cases typeSpecToWire setup var with same | ⟨valid, shared, accepted, next⟩
  · rw [same]
    exact kept
  · have plain : Plain var.name := plain_of_valid valid shared addressable.1 free
    rw [next]
    refine
      ⟨@Registry.Consistent.perform _ _ kept.consistent (.registerVariable var.entry) plain, ?_,
      kept.lists⟩
    intro other member
    rcases List.mem_append.mp member with earlier | new
    · exact (kept.vars other earlier).register _ _
    · obtain rfl := List.mem_singleton.mp new
      exact stored_of_register plain addressable.2 accepted

theorem Setup.Kept.registerList (kept : setup.Kept) {list : NamedVariableList}
    (free : (Registration.nvl list : Registration Any).SlashFree)
    (addressable : (Registration.nvl list : Registration Any).Addressable) :
    (setup.register typeSpecToWire (.nvl list)).Kept := by
  rcases register_nvl_cases typeSpecToWire setup list with same | ⟨valid, accepted, next⟩
  · rw [same]
    exact kept
  · obtain ⟨shared, bare, fits⟩ := addressable
    have plain : Plain list.name := plain_of_valid valid shared bare free
    rw [next]
    refine ⟨kept.consistent.with_nvls (kept.consistent.nvls.register _ plain), kept.vars, ?_⟩
    intro other member
    rcases List.mem_append.mp member with earlier | new
    · exact (kept.lists other earlier).register _ _
    · obtain rfl := List.mem_singleton.mp new
      exact stored_of_register plain fits accepted

/-- One call keeps the invariant. -/
theorem Setup.Kept.register (kept : setup.Kept) {call : Registration Any} (free : call.SlashFree)
    (addressable : call.Addressable) : (setup.register typeSpecToWire call).Kept := by
  cases call with
  | domain name => exact kept.registerDomain name
  | var item => exact kept.registerVariable free addressable
  | nvl list => exact kept.registerList free addressable

theorem Setup.Kept.foldl (kept : setup.Kept) {calls : List (Registration Any)}
    (free : ∀ call ∈ calls, call.SlashFree) (addressable : ∀ call ∈ calls, call.Addressable) :
    (calls.foldl (Setup.register typeSpecToWire) setup).Kept := by
  induction calls generalizing setup with
  | nil => exact kept
  | cons call calls ih =>
    exact ih (kept.register (free call List.mem_cons_self) (addressable call List.mem_cons_self))
      (fun later member => free later (List.mem_cons_of_mem _ member))
      (fun later member => addressable later (List.mem_cons_of_mem _ member))

/-! ## Reachability -/

theorem Stored.receivedName [Entry E] (stored : Stored table name entry) :
    ∃ slot itemID, Server.receivedName name = .ok (wireName slot itemID) ∧
      table.find (slot.name itemID) = some entry := by
  obtain ⟨slot, named⟩ := stored.plain.exists_slot
  refine ⟨slot, name.itemID, ?_, named ▸ stored.found⟩
  have fits := stored.fits
  rw [named] at fits ⊢
  simpa using receivedName_name fits

theorem mem_order_of_mem_page {registry : Registry Any (List Octets)}
    {listing : Registry.Listing} {continueAfter itemID : Octets} {maxNames : Int64}
    (member : itemID ∈ (registry.list listOps listing continueAfter maxNames ()).names) :
    itemID ∈ registry.orderOf listOps listing :=
  List.mem_of_mem_drop (List.mem_of_mem_take member)

theorem Setup.Kept.reachable (kept : setup.Kept) : setup.Reachable where
  vars var member := by
    obtain ⟨slot, itemID, received, found⟩ := (kept.vars var member).receivedName
    refine ⟨_, received, fun connection => ?_⟩
    rw [lookupVariable_wireName, found]
  lists list member := by
    obtain ⟨slot, itemID, received, found⟩ := (kept.lists list member).receivedName
    refine ⟨_, received, fun connection => ?_⟩
    rw [resolveNVLMembers, lookupNVL_wireName, found]
    exact ⟨rfl, rfl⟩
  listedVars slot continueAfter maxNames itemID member connection := by
    have listed : itemID ∈ setup.registry.vars.slotOrder slot := by
      have ordered := mem_order_of_mem_page member
      cases slot <;> exact ordered
    rw [lookupVariable_wireName]
    exact (kept.consistent.vars.members slot itemID).mp listed
  listedLists slot continueAfter maxNames itemID member connection := by
    have listed : itemID ∈ setup.registry.nvls.slotOrder slot := by
      have ordered := mem_order_of_mem_page member
      cases slot <;> exact ordered
    obtain ⟨entry, found⟩ :=
      Option.isSome_iff_exists.mp ((kept.consistent.nvls.members slot itemID).mp listed)
    rw [resolveNVLMembers, lookupNVL_wireName, found]
    rfl

/-- After every sequence of calls that meet the condition, all that is registered or listed is
reachable. -/
theorem registered_reachable (typeSpecToWire : Any → Except String Unit)
    (calls : List (Registration Any)) (free : ∀ call ∈ calls, call.SlashFree)
    (addressable : ∀ call ∈ calls, call.Addressable) :
    (Setup.registerAll typeSpecToWire calls).Reachable :=
  (Setup.kept_new.foldl free addressable).reachable

/-- Domain `d` with variable `x` and a list `l` of it, and VMD variable `x`. -/
def sampleRegistrations : List (Registration Unit) :=
  [.domain [0x64], .var ⟨⟨1, [0x64], [0x78]⟩, (), false, (), ()⟩,
    .var ⟨⟨0, [], [0x78]⟩, (), false, (), ()⟩,
    .nvl ⟨⟨1, [0x64], [0x6c]⟩, false, [⟨⟨1, [0x64], [0x78]⟩, []⟩]⟩]

theorem registered_reachable_sample :
    (Setup.registerAll (fun _ => .ok ()) sampleRegistrations).lists.length = 1 ∧
      (Setup.registerAll (fun _ => .ok ()) sampleRegistrations).Reachable :=
  ⟨by decide +kernel,
    registered_reachable (fun _ => .ok ()) sampleRegistrations (by decide +kernel)
      (by decide +kernel)⟩

/-- VMD variable `x` with domain `d`. -/
def strayVariable : Variable Unit := ⟨⟨0, [0x64], [0x78]⟩, (), false, (), ()⟩

/-- Association-scoped list `l` of VMD variable `x`. -/
def associationList : NamedVariableList := ⟨⟨2, [], [0x6c]⟩, false, [⟨⟨0, [], [0x78]⟩, []⟩]⟩

/-- Both registrations return nil, and neither object is found under the name a client sends. -/
theorem registered_unreachable :
    (Registration.var strayVariable).SlashFree ∧
      strayVariable ∈ (Setup.registerAll (fun _ => .ok ()) [.var strayVariable]).vars ∧
      ¬ (Setup.registerAll (fun _ => .ok ()) [.var strayVariable]).Reachable ∧
      (Registration.nvl associationList : Registration Unit).SlashFree ∧
      associationList ∈ (Setup.registerAll (fun _ : Unit => .ok ()) [.nvl associationList]).lists ∧
      ¬ (Setup.registerAll (fun _ : Unit => .ok ()) [.nvl associationList]).Reachable := by
  have strayStored :
      strayVariable ∈ (Setup.registerAll (fun _ => .ok ()) [.var strayVariable]).vars := by
    decide +kernel
  have listStored : associationList ∈
      (Setup.registerAll (fun _ : Unit => .ok ()) [.nvl associationList]).lists := by
    decide +kernel
  refine ⟨by decide, strayStored, fun reachable => ?_, by decide, listStored, fun reachable => ?_⟩
  · obtain ⟨wire, received, found⟩ := reachable.vars strayVariable strayStored
    -- the domain is not sent
    have sent : receivedName strayVariable.name = .ok (wireName .vmd [0x78]) := by decide +kernel
    obtain rfl : wireName .vmd [0x78] = wire := Except.ok.inj (sent.symm.trans received)
    exact absurd (found none) (by decide +kernel)
  · obtain ⟨wire, received, found⟩ := reachable.lists associationList listStored
    -- the connection is asked, not the registry
    have sent : receivedName associationList.name =
        .ok { scope := scopeAssociation, itemID := [0x6c] } := by decide +kernel
    obtain rfl : ({ scope := scopeAssociation, itemID := [0x6c] } : ObjectNameWire) = wire :=
      Except.ok.inj (sent.symm.trans received)
    exact absurd (found none).1 (by decide +kernel)

end GoMms.Server
