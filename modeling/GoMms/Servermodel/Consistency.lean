import GoMms.Servermodel.Keys

/-!
# The representation invariant of the registry

A table keeps its entries in a map and their names in order lists, one for the VMD and one for
each domain. While every registered name is plain the lists are strictly ascending and hold
exactly the names of the entries; the bulk deletes remove exactly the deletable lists of their
slot and count what they do.
-/

namespace GoMms.Servermodel

open Sorted

/-! ## Slots -/

/-- The place of an order list. -/
inductive Slot where
  | vmd
  | domain (name : Octets)
  deriving DecidableEq, Repr

namespace Slot

/-- The full name of an item of the slot. -/
def name : Slot → Octets → EntryName
  | vmd, itemID => ⟨0, [], itemID⟩
  | domain inside, itemID => ⟨1, inside, itemID⟩

/-- The slot of a name by its scope and domain. -/
def has : Slot → EntryName → Bool
  | vmd, name => name.scope = 0
  | domain inside, name => name.scope = 1 && name.domain = inside

/-- The listing that reads the names of a kind in the slot. -/
def listing : EntryKind → Slot → Registry.Listing
  | .var, vmd => .vmdVariables
  | .var, domain inside => .domainVariables inside
  | .nvl, vmd => .vmdNVLs
  | .nvl, domain inside => .domainNVLs inside

@[simp] theorem itemID_name (slot : Slot) (itemID : Octets) :
    (slot.name itemID).itemID = itemID := by
  cases slot <;> rfl

theorem name_injective {slot slot' : Slot} {itemID itemID' : Octets}
    (same : slot.name itemID = slot'.name itemID') : slot = slot' ∧ itemID = itemID' := by
  cases slot <;> cases slot' <;> simp_all [name]

end Slot

variable {name : EntryName}

theorem Plain.exists_slot (plain : Plain name) : ∃ slot : Slot, name = slot.name name.itemID := by
  obtain ⟨scope, domain, itemID⟩ := name
  rcases plain.scope with ⟨vmd, none⟩ | inDomain
  · exact ⟨.vmd, by simp_all [Slot.name]⟩
  · exact ⟨.domain domain, by simp_all [Slot.name]⟩

/-- Among plain names the slot is decided by scope and domain. -/
theorem Plain.has_iff (plain : Plain name) (slot : Slot) :
    slot.has name = true ↔ name = slot.name name.itemID := by
  obtain ⟨scope, domain, itemID⟩ := name
  rcases plain.scope with ⟨vmd, none⟩ | inDomain <;> cases slot <;> simp_all [Slot.has, Slot.name]

namespace Table

variable {E : Type} [Entry E]

/-- The order list of a slot. -/
def slotOrder (table : Table E (List Octets)) : Slot → List Octets
  | .vmd => table.vmdOrder
  | .domain domain => table.orderOf listOps domain

/-- The entry under the key of a name. -/
def find (table : Table E (List Octets)) (name : EntryName) : Option E :=
  table.entries.lookup ((Entry.kind E).key name)

/-- The entries of a slot. -/
def inSlot (table : Table E (List Octets)) (slot : Slot) : List E :=
  (table.entries.entries.map (·.2)).filter fun entry => slot.has (Entry.name entry)

section UpdateOrder

variable (edit : List Octets → Octets → List Octets) (table : Table E (List Octets))

/-- Editing the list of one name. -/
abbrev editOrder (name : EntryName) : Table E (List Octets) :=
  (updateOrder listOps (fun order itemID heap => (edit order itemID, heap)) name table ()).1

omit [Entry E] in
theorem entries_editOrder (name : EntryName) :
    (editOrder edit table name).entries = table.entries := by
  unfold editOrder updateOrder
  split
  · rfl
  · split <;> rfl

omit [Entry E] in
theorem slotOrder_editOrder (slot other : Slot) (itemID : Octets) :
    (editOrder edit table (slot.name itemID)).slotOrder other =
      if other = slot then edit (table.slotOrder slot) itemID else table.slotOrder other := by
  cases slot with
  | vmd => cases other <;> simp [editOrder, updateOrder, Slot.name, slotOrder, orderOf]
  | domain domain =>
    cases other with
    | vmd => simp [editOrder, updateOrder, Slot.name, slotOrder]
    | domain domain' =>
      by_cases same : domain' = domain
      · subst same
        simp [editOrder, updateOrder, Slot.name, slotOrder, orderOf]
      · simp [editOrder, updateOrder, Slot.name, slotOrder, orderOf, same,
          AList.lookup_insert_ne same]

end UpdateOrder

/-! ## The invariant of a table -/

/-- Entries sit under their own keys, and the order list of every slot is strictly ascending and
holds exactly the items of that slot. -/
structure Consistent (table : Table E (List Octets)) : Prop where
  keyed : ∀ key entry, table.entries.lookup key = some entry →
    key = Entry.key entry ∧ Plain (Entry.name entry)
  ascending : ∀ slot, Ascending (table.slotOrder slot)
  members : ∀ slot itemID, itemID ∈ table.slotOrder slot ↔
    (table.find (slot.name itemID)).isSome = true

theorem consistent_new : Consistent (new listOps : Table E (List Octets)) where
  keyed key entry found := by simp [new] at found
  ascending slot := by cases slot <;> exact List.Pairwise.nil
  members slot itemID := by cases slot <;> simp [new, slotOrder, orderOf, listOps, find]

variable {table : Table E (List Octets)}

/-- The entry found under the key of a name has that name. -/
theorem Consistent.name_of_find (consistent : Consistent table) {entry : E}
    (found : table.find name = some entry) : Entry.name entry = name ∧ Plain name := by
  obtain ⟨key, plain⟩ := consistent.keyed _ _ found
  have same := plain.key_inj key
  exact ⟨same.symm, same ▸ plain⟩

section AddRemove

theorem lookup_add (entry : E) (key : Octets) :
    (table.add listOps entry ()).1.entries.lookup key =
      if key = Entry.key entry then some entry else table.entries.lookup key := by
  have entries : (table.add listOps entry ()).1.entries =
      table.entries.insert (Entry.key entry) entry :=
    entries_editOrder insertSorted _ (Entry.name entry)
  rw [entries]
  split
  · next same => rw [same, AList.lookup_insert]
  · next different => exact AList.lookup_insert_ne different

theorem lookup_remove (name : EntryName) (key : Octets) :
    (table.remove listOps name ()).1.entries.lookup key =
      if key = (Entry.kind E).key name then none else table.entries.lookup key := by
  have entries : (table.remove listOps name ()).1.entries =
      table.entries.erase ((Entry.kind E).key name) :=
    entries_editOrder List.erase _ name
  rw [entries]
  split
  · next same => rw [same, AList.lookup_erase]
  · next different => exact AList.lookup_erase_ne different

theorem find_add (entry : E) (name : EntryName) :
    (table.add listOps entry ()).1.find name =
      if (Entry.kind E).key name = Entry.key entry then some entry else table.find name :=
  lookup_add entry _

theorem find_remove (name other : EntryName) :
    (table.remove listOps name ()).1.find other =
      if (Entry.kind E).key other = (Entry.kind E).key name then none else table.find other :=
  lookup_remove name _

/-- Storing one value under a plain name, or none, keeps the invariant if the edit of the order
list of its slot does the same to the item. -/
theorem Consistent.edited {edit : List Octets → Octets → List Octets} {base : Table E (List Octets)}
    {slot : Slot} {itemID : Octets} {value : Option E} (consistent : Consistent table)
    (named : name = slot.name itemID) (plain : Plain name)
    (lookup : ∀ key, (editOrder edit base name).entries.lookup key =
      if key = (Entry.kind E).key name then value else table.entries.lookup key)
    (unordered : base.slotOrder = table.slotOrder)
    (stored : ∀ entry, value = some entry → Entry.name entry = name)
    (ascending : Ascending (edit (table.slotOrder slot) itemID))
    (members : ∀ item, item ∈ edit (table.slotOrder slot) itemID ↔
      if item = itemID then value.isSome = true else item ∈ table.slotOrder slot) :
    Consistent (editOrder edit base name) := by
  subst named
  have order := slotOrder_editOrder edit base slot
  rw [unordered] at order
  refine ⟨?_, ?_, ?_⟩
  · intro key entry found
    rw [lookup] at found
    split at found
    · rename_i same
      rw [Entry.key, stored entry found]
      exact ⟨same, plain⟩
    · exact consistent.keyed key entry found
  · intro other
    rw [order]
    split
    · exact ascending
    · exact consistent.ascending other
  · intro other item
    rw [order, find, lookup]
    by_cases here : other = slot ∧ item = itemID
    · obtain ⟨rfl, rfl⟩ := here
      rw [if_pos rfl, if_pos rfl, members, if_pos rfl]
    · have different : (Entry.kind E).key (other.name item) ≠
          (Entry.kind E).key (slot.name itemID) :=
        fun same => here (Slot.name_injective (plain.key_inj same))
      rw [if_neg different, ← find, ← consistent.members]
      split
      · rename_i same
        rw [members, if_neg fun equal => here ⟨same, equal⟩, same]
      · rfl

variable {entry : E}

/-- A new plain entry keeps the invariant. -/
theorem Consistent.add (consistent : Consistent table) (plain : Plain (Entry.name entry))
    (fresh : table.find (Entry.name entry) = none) : Consistent (table.add listOps entry ()).1 := by
  obtain ⟨slot, named⟩ := plain.exists_slot
  have absent : (Entry.name entry).itemID ∉ table.slotOrder slot := by
    rw [consistent.members, ← named, fresh]
    exact Bool.false_ne_true
  refine consistent.edited named plain (lookup_add entry) rfl ?_
    ((consistent.ascending slot).insertSorted absent) fun item => ?_
  · rintro other ⟨⟩
    rfl
  · by_cases same : item = (Entry.name entry).itemID
    · simp [same]
    · simp [same]

/-- Deleting an entry keeps the invariant. -/
theorem Consistent.remove (consistent : Consistent table) (found : table.find name = some entry) :
    Consistent (table.remove listOps name ()).1 := by
  obtain ⟨-, plain⟩ := consistent.name_of_find found
  obtain ⟨slot, named⟩ := plain.exists_slot
  refine consistent.edited named plain (lookup_remove name) rfl
    (fun _ stored => by cases stored) ((consistent.ascending slot).erase _) fun item => ?_
  rw [(consistent.ascending slot).mem_erase]
  by_cases same : item = name.itemID
  · simp [same]
  · simp [same]

/-- Registering a plain entry keeps the invariant, whether or not it is refused. -/
theorem Consistent.register (consistent : Consistent table) (domains : AList fun _ : Octets => Bool)
    (plain : Plain (Entry.name entry)) :
    Consistent (table.register listOps domains entry ()).2.1 := by
  simp only [Table.register]
  split_ifs with empty required registered exists_
  · exact consistent
  · exact consistent
  · exact consistent
  · exact consistent
  · exact consistent.add plain (by simpa [find, Entry.key] using exists_)

/-- A refused registration changes nothing. -/
theorem register_error (domains : AList fun _ : Octets => Bool) {error : RegistryError}
    (refused : (table.register listOps domains entry ()).1 = .error error) :
    (table.register listOps domains entry ()).2.1 = table := by
  simp only [Table.register] at refused ⊢
  split_ifs at refused ⊢
  all_goals rfl

/-- An accepted registration had a free key and stored its entry. -/
theorem register_ok (domains : AList fun _ : Octets => Bool)
    (accepted : (table.register listOps domains entry ()).1 = .ok ()) :
    table.find (Entry.name entry) = none ∧
      (table.register listOps domains entry ()).2.1 = (table.add listOps entry ()).1 := by
  simp only [Table.register] at accepted ⊢
  split_ifs at accepted ⊢ with empty required registered exists_
  exact ⟨by simpa [find, Entry.key] using exists_, rfl⟩

/-- What a registration checks. -/
theorem register_ok_iff (domains : AList fun _ : Octets => Bool) (entry : E) :
    (table.register listOps domains entry ()).1 = .ok () ↔
      (Entry.name entry).itemID ≠ [] ∧
      ((Entry.name entry).scope = 1 → (Entry.name entry).domain ≠ [] ∧
        (domains.lookup (Entry.name entry).domain).getD false = true) ∧
      table.find (Entry.name entry) = none := by
  simp only [Table.register, find, Entry.key]
  split_ifs with empty required registered exists_
  · simp [empty]
  · simp [required]
  · simp [registered]
  · refine iff_of_false (by simp [exists_]) ?_
    rintro ⟨-, -, free⟩
    simp [free] at exists_
  · refine iff_of_true (by simp [exists_])
      ⟨empty, fun scope => ⟨fun none => required ⟨scope, none⟩, ?_⟩, by simpa using exists_⟩
    by_contra missing
    exact registered ⟨scope, by simpa using missing⟩

/-- A registration leaves what is stored where it is. -/
theorem find_register (domains : AList fun _ : Octets => Bool) {found : E}
    (stored : table.find name = some found) :
    (table.register listOps domains entry ()).2.1.find name = some found := by
  cases result : (table.register listOps domains entry ()).1 with
  | error error => rw [register_error domains result, stored]
  | ok done =>
    obtain ⟨free, added⟩ := register_ok domains result
    have other : (Entry.kind E).key name ≠ Entry.key entry := by
      intro same
      rw [find, same] at stored
      exact nomatch stored.symm.trans free
    rw [added, find_add, if_neg other, stored]

end AddRemove

end Table

/-! ## Bulk deletes -/

section BulkDelete

variable {table : Table NVLEntry (List Octets)}

/-- The item of the slot names a deletable list. -/
def deletes (table : Table NVLEntry (List Octets)) (slot : Slot) (itemID : Octets) : Bool :=
  (table.find (slot.name itemID)).any (·.deletable)

/-- What is left of an entry when the deletable ones among the names of the slot go. -/
def survives (slot : Slot) (names : List Octets) (entry : NVLEntry) : Bool :=
  !(entry.deletable && slot.has entry.toEntryName && decide (entry.itemID ∈ names))

variable {scope : Int64} {domain : Octets} {names : List Octets}

variable {slot : Slot} {itemID : Octets} {entry : NVLEntry}

/-- The list found under an item of a slot belongs to the slot. -/
theorem has_of_find (consistent : table.Consistent)
    (found : table.find (slot.name itemID) = some entry) :
    slot.has entry.toEntryName = true ∧ entry.itemID = itemID := by
  have named : entry.toEntryName = slot.name itemID := (consistent.name_of_find found).1
  rw [named]
  exact ⟨by cases slot <;> simp [Slot.has, Slot.name], Slot.itemID_name slot itemID⟩

theorem survives_cons (slot : Slot) (itemID : Octets) (names : List Octets) (entry : NVLEntry) :
    survives slot (itemID :: names) entry =
      (survives slot [itemID] entry && survives slot names entry) := by
  unfold survives
  cases entry.deletable with
  | false => rfl
  | true =>
    cases slot.has entry.toEntryName with
    | false => rfl
    | true => simp

/-- A name matters only for the deletable list it names. -/
theorem survives_single (consistent : table.Consistent) (found : table.find name = some entry)
    (other : entry.deletable = true → name ≠ slot.name itemID) :
    survives slot [itemID] entry = true := by
  obtain ⟨named, plain⟩ := consistent.name_of_find found
  by_contra gone
  simp only [survives, List.mem_singleton, Bool.not_eq_true', Bool.not_eq_false,
    Bool.and_eq_true, decide_eq_true_eq] at gone
  obtain ⟨⟨deletable, has⟩, same⟩ := gone
  apply other deletable
  rw [← named, ((named ▸ plain : Plain (Entry.name entry)).has_iff slot).mp has]
  exact congrArg slot.name same

/-- One pass takes the list that the item names, if it is deletable. -/
theorem deleteOne_spec (shape : ∀ itemID, (⟨scope, domain, itemID⟩ : EntryName) = slot.name itemID)
    (consistent : table.Consistent) (matched deleted : Nat) (itemID : Octets) :
    ∃ next : Table NVLEntry (List Octets),
      deleteOne listOps scope domain ((matched, deleted), table, ()) itemID =
        ((matched + (table.find (slot.name itemID)).isSome.toNat,
          deleted + (deletes table slot itemID).toNat), next, ()) ∧
      next.Consistent ∧
      ∀ name, next.find name = (table.find name).filter (survives slot [itemID]) := by
  have lookup : table.entries.lookup (EntryKind.nvl.key ⟨scope, domain, itemID⟩) =
      table.find (slot.name itemID) := by
    rw [shape]
    rfl
  by_cases gone : deletes table slot itemID = true
  · obtain ⟨entry, found, deletable⟩ : ∃ entry, table.find (slot.name itemID) = some entry ∧
        entry.deletable = true := by simpa [deletes, Option.any_eq_true] using gone
    refine ⟨(table.remove listOps (slot.name itemID) ()).1,
      by simp [deleteOne, gone, lookup, found, deletable, shape], consistent.remove found,
      fun name => ?_⟩
    rw [Table.find_remove]
    split
    · rename_i equal
      obtain rfl := (consistent.name_of_find found).2.key_inj equal
      obtain ⟨has, item⟩ := has_of_find consistent found
      rw [found]
      simp [Option.filter, survives, deletable, has, item]
    rename_i different
    cases here : table.find name with
    | none => rfl
    | some other =>
      rw [Option.filter_some, survives_single consistent here fun _ equal =>
        different (by rw [equal]), if_pos rfl]
  · refine ⟨table, ?_, consistent, fun name => ?_⟩
    · cases found : table.find (slot.name itemID) with
      | none => simp [deleteOne, deletes, lookup, found]
      | some entry =>
        have kept : entry.deletable = false := by simpa [deletes, found] using gone
        simp [deleteOne, deletes, lookup, found, kept]
    · cases here : table.find name with
      | none => rfl
      | some other =>
        rw [Option.filter_some, survives_single consistent here, if_pos rfl]
        rintro deletable rfl
        exact gone (by simp [deletes, here, deletable])

theorem deleteAll_spec (slot : Slot)
    (shape : ∀ itemID, (⟨scope, domain, itemID⟩ : EntryName) = slot.name itemID)
    (nodup : names.Nodup) (consistent : table.Consistent) (matched deleted : Nat) :
    ∃ final : Table NVLEntry (List Octets),
      names.foldl (deleteOne listOps scope domain) ((matched, deleted), table, ()) =
        ((matched + names.countP fun itemID => (table.find (slot.name itemID)).isSome,
            deleted + names.countP (deletes table slot)), final, ()) ∧
      final.Consistent ∧
      ∀ name, final.find name = (table.find name).filter (survives slot names) := by
  induction names generalizing table matched deleted with
  | nil =>
    refine ⟨table, by simp, consistent, fun name => ?_⟩
    cases table.find name <;> simp [survives, Option.filter]
  | cons itemID names ih =>
    obtain ⟨fresh, nodup⟩ := List.nodup_cons.mp nodup
    obtain ⟨next, pass, smaller, finds⟩ := deleteOne_spec shape consistent matched deleted itemID
    obtain ⟨final, run, kept, left⟩ := ih nodup smaller _ _
    -- the rest of the names finds what it would have found before the pass
    have same : ∀ other ∈ names, next.find (slot.name other) = table.find (slot.name other) := by
      intro other member
      rw [finds]
      cases here : table.find (slot.name other) with
      | none => rfl
      | some entry =>
        rw [Option.filter_some, survives_single consistent here, if_pos rfl]
        intro _ equal
        exact fresh ((Slot.name_injective equal).2 ▸ member)
    refine ⟨final, ?_, kept, fun name => ?_⟩
    · have found : names.countP (fun other => (next.find (slot.name other)).isSome) =
          names.countP fun other => (table.find (slot.name other)).isSome :=
        List.countP_congr fun other member => by rw [same other member]
      have deleted : names.countP (deletes next slot) = names.countP (deletes table slot) :=
        List.countP_congr fun other member => by rw [deletes, deletes, same other member]
      rw [List.foldl_cons, pass, run, found, deleted, List.countP_cons, List.countP_cons]
      cases (table.find (slot.name itemID)).isSome <;> cases deletes table slot itemID <;>
        simp [Nat.add_assoc, Nat.add_comm]
    · rw [left, finds, Option.filter_filter]
      congr 1
      exact (funext (survives_cons slot itemID names)).symm

end BulkDelete

/-! ## Entries and order lists -/

section InSlot

variable {E : Type} [Entry E] {table : Table E (List Octets)}

theorem Table.Consistent.mem_inSlot (consistent : table.Consistent) (slot : Slot) (entry : E) :
    entry ∈ table.inSlot slot ↔ table.find (slot.name (Entry.name entry).itemID) = some entry := by
  constructor
  · intro member
    obtain ⟨inside, has⟩ := List.mem_filter.mp member
    obtain ⟨⟨key, value⟩, stored, rfl⟩ := List.mem_map.mp inside
    obtain ⟨rfl, plain⟩ := consistent.keyed key value (AList.mem_lookup_iff.mpr stored)
    rw [← (plain.has_iff slot).mp has]
    exact AList.mem_lookup_iff.mpr stored
  · intro found
    obtain ⟨named, plain⟩ := consistent.name_of_find found
    refine List.mem_filter.mpr ⟨?_, ?_⟩
    · exact List.mem_map.mpr ⟨⟨_, entry⟩, AList.mem_lookup_iff.mp found, rfl⟩
    · exact ((named ▸ plain : Plain (Entry.name entry)).has_iff slot).mpr named

/-- The items of the entries of a slot are its order list, in some order. -/
theorem Table.Consistent.items_perm (consistent : table.Consistent) (slot : Slot) :
    ((table.inSlot slot).map fun entry => (Entry.name entry).itemID).Perm
      (table.slotOrder slot) := by
  have nodup : ((table.inSlot slot).map fun entry => (Entry.name entry).itemID).Nodup := by
    refine List.pairwise_map.mpr ?_
    have distinct : (table.inSlot slot).Pairwise fun first second =>
        Entry.key first ≠ Entry.key second := by
      refine List.Pairwise.filter _ (List.pairwise_map.mpr ?_)
      refine table.entries.nodupKeys.pairwise_ne.imp_of_mem ?_
      rintro ⟨key, first⟩ ⟨key', second⟩ stored stored' different
      rwa [(consistent.keyed key first (AList.mem_lookup_iff.mpr stored)).1,
        (consistent.keyed key' second (AList.mem_lookup_iff.mpr stored')).1] at different
    refine distinct.imp_of_mem ?_
    intro first second firstIn secondIn different same
    have found := (consistent.mem_inSlot slot first).mp firstIn
    have found' := (consistent.mem_inSlot slot second).mp secondIn
    rw [same, found', Option.some.injEq] at found
    exact different (by rw [found])
  refine (List.perm_ext_iff_of_nodup nodup (consistent.ascending slot).nodup).mpr ?_
  intro itemID
  rw [consistent.members, List.mem_map]
  constructor
  · rintro ⟨entry, member, rfl⟩
    rw [(consistent.mem_inSlot slot entry).mp member]
    rfl
  · intro present
    obtain ⟨entry, found⟩ := Option.isSome_iff_exists.mp present
    have item : (Entry.name entry).itemID = itemID := by
      rw [(consistent.name_of_find found).1, Slot.itemID_name]
    exact ⟨entry, (consistent.mem_inSlot slot entry).mpr (item ▸ found), item⟩

end InSlot
end GoMms.Servermodel
