import GoMms.Foundation.SliceHeap
import GoMms.Servermodel.Representation

/-!
# The registry on shared arrays

The operations of the registry on real slices: every order list is a window on an array that the
operations rewrite in place. Each list has an array of its own, so the registry on slices does
what the registry on lists does, and its lists are ascending.
-/

namespace GoMms.Servermodel

open SliceHeap Sorted

/-- `InsertSorted` and `removeFromSorted` on slices; `grow` is the allocator's choice. -/
def sliceOps (grow : Nat → Nat → Nat) : SliceOps Slice (Heap Octets) where
  empty := Slice.nil
  names slice heap := slice.elements heap.cells
  insertSorted slice name heap :=
    insertAt grow slice (position (slice.elements heap.cells) name) name heap
  removeFromSorted slice name heap :=
    match (slice.elements heap.cells).idxOf? name with
    | none => (slice, heap)
    | some index => removeAt slice index heap
  window slice start length := slice.sub start length

variable {grow : Nat → Nat → Nat}

/-! ## The slices of a registry -/

section Orders

variable {E L H : Type} (ops : SliceOps L H)

/-- The order list of a slot. -/
def Table.orderAt (table : Table E L) : Slot → L
  | .vmd => table.vmdOrder
  | .domain inside => table.orderOf ops inside

def Table.setOrder (table : Table E L) (order : L) : Slot → Table E L
  | .vmd => { table with vmdOrder := order }
  | .domain inside => { table with order := table.order.insert inside order }

/-- The slot whose list an operation on a name edits. -/
def EntryName.slot? (name : EntryName) : Option Slot :=
  if name.scope = 0 then some .vmd
  else if name.scope = 1 then some (.domain name.domain)
  else none

theorem Table.orderAt_setOrder (table : Table E L) (order : L) (slot : Slot) :
    (table.setOrder order slot).orderAt ops = Function.update (table.orderAt ops) slot order := by
  funext other
  cases slot with
  | vmd => cases other <;> rfl
  | domain inside =>
    cases other with
    | vmd => rfl
    | domain other =>
      by_cases same : other = inside
      · subst same
        simp [setOrder, orderAt, orderOf]
      · have different : Slot.domain other ≠ Slot.domain inside := fun equal =>
          same (Slot.domain.inj equal)
        rw [Function.update_of_ne different]
        simp [setOrder, orderAt, orderOf, AList.lookup_insert_ne same]

theorem Table.orderAt_withEntries (table : Table E L) (entries : AList fun _ : Octets => E)
    (slot : Slot) :
    ({ table with entries := entries } : Table E L).orderAt ops slot = table.orderAt ops slot := by
  cases slot <;> rfl

theorem Table.entries_setOrder (table : Table E L) (order : L) (slot : Slot) :
    (table.setOrder order slot).entries = table.entries := by
  cases slot <;> rfl

/-- What an operation on a name does to the order lists. -/
theorem Table.updateOrder_eq (update : L → Octets → H → L × H) (name : EntryName)
    (table : Table E L) (heap : H) :
    table.updateOrder ops update name heap =
      match name.slot? with
      | none => (table, heap)
      | some slot =>
        (table.setOrder (update (table.orderAt ops slot) name.itemID heap).1 slot,
          (update (table.orderAt ops slot) name.itemID heap).2) := by
  unfold updateOrder EntryName.slot?
  by_cases vmd : name.scope = 0
  · rw [if_pos vmd, if_pos vmd]
    rfl
  · rw [if_neg vmd, if_neg vmd]
    by_cases inDomain : name.scope = 1
    · rw [if_pos inDomain, if_pos inDomain]
      rfl
    · rw [if_neg inDomain, if_neg inDomain]

end Orders

/-! ## Representation -/

variable {Any : Type} {registry : Registry Any Slice} {cells : Cells Octets} {next : Nat}
  {lists : Registry Any (List Octets)}

/-- The registry on slices holds what the registry on lists holds, each list in an array of its
own. -/
structure Represents (grow : Nat → Nat → Nat) (registry : Registry Any Slice)
    (cells : Cells Octets) (next : Nat) (lists : Registry Any (List Octets)) : Prop where
  domains : registry.domains = lists.domains
  vars : registry.vars.entries = lists.vars.entries
  nvls : registry.nvls.entries = lists.nvls.entries
  owned : Owned (registry.orderOf (sliceOps grow)) next
  orders : ∀ listing, (registry.orderOf (sliceOps grow) listing).elements cells =
    lists.orderOf listOps listing

theorem represents_new (cells : Cells Octets) (next : Nat) :
    Represents grow (Registry.new (sliceOps grow) : Registry Any Slice) cells next
      (Registry.new listOps) where
  domains := rfl
  vars := rfl
  nvls := rfl
  owned := by
    have empty : ∀ listing, (Registry.new (sliceOps grow) : Registry Any Slice).orderOf
        (sliceOps grow) listing = Slice.nil := by
      intro listing
      cases listing <;> rfl
    refine ⟨fun listing => ?_, fun listing used => ?_, fun listing _ _ used => ?_⟩
    · rw [empty]
      exact le_refl 0
    · rw [empty] at used
      exact absurd used (lt_irrefl 0)
    · rw [empty] at used
      exact absurd used (lt_irrefl 0)
  orders listing := by cases listing <;> rfl

/-- An edit of one order list, mirrored on lists. -/
theorem Represents.edit {heap : Heap Octets}
    (represents : Represents grow registry heap.cells heap.next lists)
    {listing : Registry.Listing} {slice : Slice} {content : List Octets}
    {result : Slice × Heap Octets}
    (here : registry.orderOf (sliceOps grow) listing = slice)
    (edited : Edited slice heap content result)
    {registry' : Registry Any Slice} {lists' : Registry Any (List Octets)}
    (domains : registry'.domains = lists'.domains)
    (vars : registry'.vars.entries = lists'.vars.entries)
    (nvls : registry'.nvls.entries = lists'.nvls.entries)
    (slices : registry'.orderOf (sliceOps grow) =
      Function.update (registry.orderOf (sliceOps grow)) listing result.1)
    (contents : lists'.orderOf listOps = Function.update (lists.orderOf listOps) listing content) :
    Represents grow registry' result.2.cells result.2.next lists' := by
  subst here
  refine ⟨domains, vars, nvls, slices ▸ represents.owned.edit edited, fun other => ?_⟩
  rw [slices, contents]
  by_cases here : other = listing
  · subst here
    simpa using edited.elements
  · rw [Function.update_of_ne here, Function.update_of_ne here,
      represents.owned.elements_edit edited here, represents.orders]

variable {L H : Type}

/-- The order lists of the registry, by kind and slot. -/
theorem Registry.orderOf_listing (ops : SliceOps L H) (registry : Registry Any L) (slot : Slot) :
    registry.orderOf ops (slot.listing .var) = registry.vars.orderAt ops slot ∧
      registry.orderOf ops (slot.listing .nvl) = registry.nvls.orderAt ops slot := by
  cases slot <;> exact ⟨rfl, rfl⟩

theorem Registry.orderOf_setVars (ops : SliceOps L H) (registry : Registry Any L)
    (table : Table (VarEntry Any) L) (slot : Slot) (order : L)
    (changed : table.orderAt ops = Function.update (registry.vars.orderAt ops) slot order) :
    ({ registry with vars := table } : Registry Any L).orderOf ops =
      Function.update (registry.orderOf ops) (slot.listing .var) order := by
  funext listing
  have at_ := congrFun changed
  cases listing with
  | domains => cases slot <;> rfl
  | domainNVLs inside => cases slot <;> rfl
  | vmdNVLs => cases slot <;> rfl
  | vmdVariables =>
    have here := at_ .vmd
    cases slot <;> simpa [Function.update_apply, Slot.listing, Table.orderAt, orderOf] using here
  | domainVariables inside =>
    have here := at_ (.domain inside)
    cases slot <;> simpa [Function.update_apply, Slot.listing, Table.orderAt, orderOf] using here

theorem Registry.orderOf_setNVLs (ops : SliceOps L H) (registry : Registry Any L)
    (table : Table NVLEntry L) (slot : Slot) (order : L)
    (changed : table.orderAt ops = Function.update (registry.nvls.orderAt ops) slot order) :
    ({ registry with nvls := table } : Registry Any L).orderOf ops =
      Function.update (registry.orderOf ops) (slot.listing .nvl) order := by
  funext listing
  have at_ := congrFun changed
  cases listing with
  | domains => cases slot <;> rfl
  | domainVariables inside => cases slot <;> rfl
  | vmdVariables => cases slot <;> rfl
  | vmdNVLs =>
    have here := at_ .vmd
    cases slot <;> simpa [Function.update_apply, Slot.listing, Table.orderAt, orderOf] using here
  | domainNVLs inside =>
    have here := at_ (.domain inside)
    cases slot <;> simpa [Function.update_apply, Slot.listing, Table.orderAt, orderOf] using here

/-! ## Edits of the order lists -/

/-- An operation on slices does what an operation on lists does, on every slice that has its
array to itself. -/
def Mirrors (update : Slice → Octets → Heap Octets → Slice × Heap Octets)
    (edit : List Octets → Octets → List Octets) : Prop :=
  ∀ (slice : Slice) (name : Octets) (heap : Heap Octets), slice.length ≤ slice.cap →
    (0 < slice.cap → slice.array < heap.next) →
      Edited slice heap (edit (slice.elements heap.cells) name) (update slice name heap)

theorem insertSorted_mirrors : Mirrors (sliceOps grow).insertSorted Sorted.insertSorted := by
  intro slice name heap _ allocated
  have inside := position_le (slice.elements heap.cells) name
  rw [length_elements] at inside
  exact insertAt_edited name inside allocated

theorem removeFromSorted_mirrors : Mirrors (sliceOps grow).removeFromSorted List.erase := by
  intro slice name heap within allocated
  simp only [sliceOps]
  cases found : (slice.elements heap.cells).idxOf? name with
  | none =>
    rw [List.erase_of_not_mem (List.idxOf?_eq_none_iff.mp found)]
    exact edited_refl within allocated
  | some index =>
    obtain ⟨inside, holds, first⟩ := List.findIdx?_eq_some_iff_getElem.mp found
    have located : (slice.elements heap.cells).idxOf name = index :=
      (List.findIdx_eq inside).mpr ⟨holds, fun index before => by simpa using first index before⟩
    rw [List.erase_eq_eraseIdx_of_idxOf located]
    rw [length_elements] at inside
    exact removeAt_edited inside within allocated

/-- The registry on slices went on to represent these lists, with every write in the log. -/
structure Follows (grow : Nat → Nat → Nat) (heap : Heap Octets)
    (result : Registry Any Slice × Heap Octets) (lists : Registry Any (List Octets)) : Prop where
  represents : Represents grow result.1 result.2.cells result.2.next lists
  logged : ∀ cells, heap.LoggedFrom cells → result.2.LoggedFrom cells

variable {heap : Heap Octets} {update : Slice → Octets → Heap Octets → Slice × Heap Octets}
  {edit : List Octets → Octets → List Octets}

theorem Follows.refl (represents : Represents grow registry heap.cells heap.next lists) :
    Follows grow heap (registry, heap) lists :=
  ⟨represents, fun _ logged => logged⟩

theorem Follows.trans {middle : Registry Any Slice × Heap Octets}
    {result : Registry Any Slice × Heap Octets} {before after : Registry Any (List Octets)}
    (first : Follows grow heap middle before) (second : Follows grow middle.2 result after) :
    Follows grow heap result after :=
  ⟨second.represents, fun cells logged => second.logged cells (first.logged cells logged)⟩

/-- Tables with the same entries refuse the same registrations. -/
theorem Table.register_both {E L H : Type} [Entry E] {ops : SliceOps L H} {table : Table E L}
    {listTable : Table E (List Octets)} {domains listDomains : AList fun _ : Octets => Bool}
    (entries : table.entries = listTable.entries) (same : domains = listDomains) (entry : E)
    (heap : H) :
    (∃ error, table.register ops domains entry heap = (.error error, table, heap) ∧
        listTable.register listOps listDomains entry () = (.error error, listTable, ())) ∨
      table.register ops domains entry heap = (.ok (), table.add ops entry heap) ∧
        listTable.register listOps listDomains entry () =
          (.ok (), listTable.add listOps entry ()) := by
  simp only [Table.register, entries, same]
  split_ifs
  · exact .inl ⟨_, rfl, rfl⟩
  · exact .inl ⟨_, rfl, rfl⟩
  · exact .inl ⟨_, rfl, rfl⟩
  · exact .inl ⟨_, rfl, rfl⟩
  · exact .inr ⟨rfl, rfl⟩

variable (represents : Represents grow registry heap.cells heap.next lists)

include represents

/-- One order list of a represented registry can be edited. -/
theorem Represents.edited (mirrors : Mirrors update edit) (listing : Registry.Listing)
    (name : Octets) :
    Edited (registry.orderOf (sliceOps grow) listing) heap
      (edit (lists.orderOf listOps listing) name)
      (update (registry.orderOf (sliceOps grow) listing) name heap) := by
  rw [← represents.orders listing]
  exact mirrors _ name heap (represents.owned.within listing) (represents.owned.allocated listing)

theorem Represents.updateVars (mirrors : Mirrors update edit) (name : EntryName)
    {entries listEntries : AList fun _ : Octets => VarEntry Any} (same : entries = listEntries) :
    Follows grow heap
      ({ registry with vars := (Table.updateOrder (sliceOps grow) update name
          { registry.vars with entries := entries } heap).1 },
        (Table.updateOrder (sliceOps grow) update name
          { registry.vars with entries := entries } heap).2)
      { lists with
        vars := Table.editOrder edit ({ lists.vars with entries := listEntries }) name } := by
  subst same
  simp only [Table.editOrder, Table.updateOrder_eq]
  cases name.slot? with
  | none =>
    exact ⟨⟨represents.domains, rfl, represents.nvls, represents.owned, represents.orders⟩,
      fun _ logged => logged⟩
  | some slot =>
    have edited := represents.edited mirrors (slot.listing .var) name.itemID
    rw [(Registry.orderOf_listing _ registry slot).1, (Registry.orderOf_listing _ lists slot).1]
      at edited
    simp only [Table.orderAt_withEntries]
    refine ⟨represents.edit (Registry.orderOf_listing _ registry slot).1 edited
      represents.domains ?_ represents.nvls ?_ ?_, edited.logged⟩
    · simp only [Table.entries_setOrder]
    · exact Registry.orderOf_setVars _ _ _ _ _ (Table.orderAt_setOrder _ _ _ _)
    · exact Registry.orderOf_setVars _ _ _ _ _ (Table.orderAt_setOrder _ _ _ _)

theorem Represents.updateNVLs (mirrors : Mirrors update edit) (name : EntryName)
    {entries listEntries : AList fun _ : Octets => NVLEntry} (same : entries = listEntries) :
    Follows grow heap
      ({ registry with nvls := (Table.updateOrder (sliceOps grow) update name
          { registry.nvls with entries := entries } heap).1 },
        (Table.updateOrder (sliceOps grow) update name
          { registry.nvls with entries := entries } heap).2)
      { lists with
        nvls := Table.editOrder edit ({ lists.nvls with entries := listEntries }) name } := by
  subst same
  simp only [Table.editOrder, Table.updateOrder_eq]
  cases name.slot? with
  | none =>
    exact ⟨⟨represents.domains, represents.vars, rfl, represents.owned, represents.orders⟩,
      fun _ logged => logged⟩
  | some slot =>
    have edited := represents.edited mirrors (slot.listing .nvl) name.itemID
    rw [(Registry.orderOf_listing _ registry slot).2, (Registry.orderOf_listing _ lists slot).2]
      at edited
    simp only [Table.orderAt_withEntries]
    refine ⟨represents.edit (Registry.orderOf_listing _ registry slot).2 edited
      represents.domains represents.vars ?_ ?_ ?_, edited.logged⟩
    · simp only [Table.entries_setOrder]
    · exact Registry.orderOf_setNVLs _ _ _ _ _ (Table.orderAt_setOrder _ _ _ _)
    · exact Registry.orderOf_setNVLs _ _ _ _ _ (Table.orderAt_setOrder _ _ _ _)

/-! ## Calls -/

theorem Represents.registerDomain (name : Octets) :
    (registry.registerDomain (sliceOps grow) name heap).1 =
        (lists.registerDomain listOps name ()).1 ∧
      Follows grow heap (registry.registerDomain (sliceOps grow) name heap).2
        (lists.registerDomain listOps name ()).2.1 := by
  simp only [Registry.registerDomain, represents.domains]
  split_ifs
  · exact ⟨rfl, .refl represents⟩
  · exact ⟨rfl, .refl represents⟩
  · have edited := represents.edited (@insertSorted_mirrors grow) .domains name
    refine ⟨rfl, represents.edit rfl edited rfl represents.vars represents.nvls ?_ ?_,
      edited.logged⟩
    · funext listing
      cases listing <;> rfl
    · funext listing
      cases listing <;> rfl

theorem Represents.registerVariable (entry : VarEntry Any) :
    (registry.registerVariable (sliceOps grow) entry heap).1 =
        (lists.registerVariable listOps entry ()).1 ∧
      Follows grow heap (registry.registerVariable (sliceOps grow) entry heap).2
        (lists.registerVariable listOps entry ()).2.1 := by
  rcases @Table.register_both _ _ _ _ (sliceOps grow) _ _ _ _ represents.vars represents.domains
    entry heap with ⟨error, refused, refusedList⟩ | ⟨accepted, acceptedList⟩
  · simp only [Registry.registerVariable, refused, refusedList]
    exact ⟨trivial, .refl represents⟩
  · simp only [Registry.registerVariable, accepted, acceptedList]
    exact ⟨trivial, represents.updateVars insertSorted_mirrors (Entry.name entry)
      (congrArg (AList.insert (Entry.key entry) entry) represents.vars)⟩

theorem Represents.defineNVL (entry : NVLEntry) :
    (registry.defineNVL (sliceOps grow) entry heap).1 = (lists.defineNVL listOps entry ()).1 ∧
      Follows grow heap (registry.defineNVL (sliceOps grow) entry heap).2
        (lists.defineNVL listOps entry ()).2.1 := by
  rcases @Table.register_both _ _ _ _ (sliceOps grow) _ _ _ _ represents.nvls represents.domains
    entry heap with ⟨error, refused, refusedList⟩ | ⟨accepted, acceptedList⟩
  · simp only [Registry.defineNVL, refused, refusedList]
    exact ⟨trivial, .refl represents⟩
  · simp only [Registry.defineNVL, accepted, acceptedList]
    exact ⟨trivial, represents.updateNVLs insertSorted_mirrors (Entry.name entry)
      (congrArg (AList.insert (Entry.key entry) entry) represents.nvls)⟩

/-- Removing the entry of a list. -/
theorem Represents.remove (name : EntryName) :
    Follows grow heap
      ({ registry with nvls := (registry.nvls.remove (sliceOps grow) name heap).1 },
        (registry.nvls.remove (sliceOps grow) name heap).2)
      { lists with nvls := (lists.nvls.remove listOps name ()).1 } :=
  represents.updateNVLs removeFromSorted_mirrors name
    (congrArg (AList.erase (EntryKind.nvl.key name)) represents.nvls)

theorem Represents.deleteNVL (name : EntryName) :
    (registry.deleteNVL (sliceOps grow) name heap).1 = (lists.deleteNVL listOps name ()).1 ∧
      Follows grow heap (registry.deleteNVL (sliceOps grow) name heap).2
        (lists.deleteNVL listOps name ()).2.1 := by
  have same : registry.lookupNVL name = lists.lookupNVL name := by
    simp only [Registry.lookupNVL, represents.nvls]
  cases found : lists.lookupNVL name with
  | none =>
    simp only [Registry.deleteNVL, same, found]
    exact ⟨trivial, .refl represents⟩
  | some entry =>
    cases deletable : entry.deletable with
    | false =>
      simp only [Registry.deleteNVL, same, found, deletable, Bool.not_false, if_true]
      exact ⟨trivial, .refl represents⟩
    | true =>
      simp only [Registry.deleteNVL, same, found, deletable, Bool.not_true,
        Bool.false_eq_true, if_false]
      exact ⟨trivial, represents.remove name⟩

/-- The loop of a bulk delete. -/
theorem Represents.deleteAll (scope : Int64) (domain : Octets) (names : List Octets)
    (tally : Nat × Nat) :
    (names.foldl (deleteOne (sliceOps grow) scope domain) (tally, registry.nvls, heap)).1 =
        (names.foldl (deleteOne listOps scope domain) (tally, lists.nvls, ())).1 ∧
      Follows grow heap
        ({ registry with nvls := (names.foldl (deleteOne (sliceOps grow) scope domain)
            (tally, registry.nvls, heap)).2.1 },
          (names.foldl (deleteOne (sliceOps grow) scope domain) (tally, registry.nvls, heap)).2.2)
        { lists with nvls := (names.foldl (deleteOne listOps scope domain)
            (tally, lists.nvls, ())).2.1 } := by
  induction names generalizing tally registry heap lists with
  | nil => exact ⟨rfl, .refl represents⟩
  | cons itemID names ih =>
    simp only [List.foldl_cons]
    cases found : lists.nvls.entries.lookup (EntryKind.nvl.key ⟨scope, domain, itemID⟩) with
    | none => simpa only [deleteOne, represents.nvls, found] using ih represents tally
    | some entry =>
      cases deletable : entry.deletable with
      | false =>
        simpa only [deleteOne, represents.nvls, found, deletable, Bool.false_eq_true,
          if_false] using ih represents (tally.1 + 1, tally.2)
      | true =>
        have removed := represents.remove ⟨scope, domain, itemID⟩
        have rest := ih removed.represents (tally.1 + 1, tally.2 + 1)
        simp only [deleteOne, represents.nvls, found, deletable, if_true]
        exact ⟨rest.1, removed.trans rest.2⟩

/-- A call on slices returns what it returns on lists and keeps the representation. -/
theorem Represents.perform (call : Call Any) :
    (call.perform (sliceOps grow) registry heap).1 = (call.perform listOps lists ()).1 ∧
      Follows grow heap (call.perform (sliceOps grow) registry heap).2
        (call.perform listOps lists ()).2.1 := by
  cases call with
  | registerDomain name =>
    exact (represents.registerDomain name).imp_left (congrArg Outcome.error)
  | registerVariable entry =>
    exact (represents.registerVariable entry).imp_left (congrArg Outcome.error)
  | defineNVL entry => exact (represents.defineNVL entry).imp_left (congrArg Outcome.error)
  | deleteNVL name => exact (represents.deleteNVL name).imp_left (congrArg Outcome.deleted)
  | deleteAllDomainNVLs domain =>
    have names : (registry.nvls.orderOf (sliceOps grow) domain).elements heap.cells =
        lists.nvls.orderOf listOps domain := represents.orders (.domainNVLs domain)
    have bulk := represents.deleteAll 1 domain (lists.nvls.orderOf listOps domain) (0, 0)
    simp only [Call.perform, Registry.deleteAllDomainNVLs, Servermodel.deleteAll]
    rw [show (sliceOps grow).names (registry.nvls.orderOf (sliceOps grow) domain) heap =
      lists.nvls.orderOf listOps domain from names]
    exact ⟨congrArg (fun tally : Nat × Nat => Outcome.tally tally.1 tally.2) bulk.1, bulk.2⟩
  | deleteAllVMDNVLs =>
    have names : registry.nvls.vmdOrder.elements heap.cells = lists.nvls.vmdOrder :=
      represents.orders .vmdNVLs
    have bulk := represents.deleteAll 0 [] lists.nvls.vmdOrder (0, 0)
    simp only [Call.perform, Registry.deleteAllVMDNVLs, Servermodel.deleteAll]
    rw [show (sliceOps grow).names registry.nvls.vmdOrder heap = lists.nvls.vmdOrder from names]
    exact ⟨congrArg (fun tally : Nat × Nat => Outcome.tally tally.1 tally.2) bulk.1, bulk.2⟩

end GoMms.Servermodel
