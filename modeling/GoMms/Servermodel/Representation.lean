import GoMms.Servermodel.Consistency

/-!
# Every sequence of registry calls keeps the representation

The table invariant lifted to the registry: every call on plain names preserves it, so it holds
after every sequence of calls on a new registry, a call that reports an error changes nothing,
and the bulk deletes remove what they should and count it.
-/

namespace GoMms.Servermodel

open Sorted

variable {Any : Type} {registry : Registry Any (List Octets)}

/-- The names a call registers are plain. -/
def Call.WellNamed : Call Any → Prop
  | .registerVariable entry => Plain entry.toEntryName
  | .defineNVL entry => Plain entry.toEntryName
  | _ => True

/-- The registry after a sequence of calls. -/
def performAll (calls : List (Call Any)) (registry : Registry Any (List Octets)) :
    Registry Any (List Octets) :=
  calls.foldl (fun registry call => (call.perform listOps registry ()).2.1) registry

/-- The call refused: it returned an error, or `DeleteNVL` found nothing to delete. -/
def Outcome.refused : Outcome → Bool
  | .error (.error _) => true
  | .deleted false => true
  | _ => false

namespace Registry

/-! ## What a consistent registry represents -/

/-- Every order list is strictly ascending and its members are exactly the names of the map
entries of its scope and domain. -/
structure Represented (registry : Registry Any (List Octets)) : Prop where
  domains : Ascending registry.domainOrder ∧
    ∀ name, name ∈ registry.domainOrder ↔ name ∈ registry.domains
  vars : ∀ slot, Ascending (registry.vars.slotOrder slot) ∧
    ∀ itemID, itemID ∈ registry.vars.slotOrder slot ↔
      ∃ entry ∈ registry.vars.inSlot slot, entry.itemID = itemID
  nvls : ∀ slot, Ascending (registry.nvls.slotOrder slot) ∧
    ∀ itemID, itemID ∈ registry.nvls.slotOrder slot ↔
      ∃ entry ∈ registry.nvls.inSlot slot, entry.itemID = itemID

/-- A bulk delete of a slot removes exactly its deletable lists; it counts the lists that were
there and those it removed. -/
structure BulkDeleted (before : Registry Any (List Octets)) (slot : Slot)
    (result : (Nat × Nat) × Registry Any (List Octets) × Unit) : Prop where
  matched : result.1.1 = (before.nvls.inSlot slot).length
  deleted : result.1.2 = ((before.nvls.inSlot slot).filter (·.deletable)).length
  lists : ∀ name, result.2.1.lookupNVL name = (before.lookupNVL name).filter fun entry =>
    !(entry.deletable && slot.has entry.toEntryName)
  others : result.2.1.domains = before.domains ∧ result.2.1.domainOrder = before.domainOrder ∧
    result.2.1.vars = before.vars

structure Consistent (registry : Registry Any (List Octets)) : Prop where
  domainValues : ∀ name value, registry.domains.lookup name = some value → value = true
  domainAscending : Ascending registry.domainOrder
  domainMembers : ∀ name, name ∈ registry.domainOrder ↔ name ∈ registry.domains
  vars : registry.vars.Consistent
  nvls : registry.nvls.Consistent

theorem consistent_new : Consistent (new listOps : Registry Any (List Octets)) where
  domainValues name value found := by simp [new] at found
  domainAscending := List.Pairwise.nil
  domainMembers name := by simp [new, listOps]
  vars := Table.consistent_new
  nvls := Table.consistent_new

section Kept

variable (consistent : Consistent registry)

include consistent

theorem Consistent.represented : Represented registry where
  domains := ⟨consistent.domainAscending, consistent.domainMembers⟩
  vars slot := by
    refine ⟨consistent.vars.ascending slot, fun itemID => ?_⟩
    rw [← (consistent.vars.items_perm slot).mem_iff, List.mem_map]
    rfl
  nvls slot := by
    refine ⟨consistent.nvls.ascending slot, fun itemID => ?_⟩
    rw [← (consistent.nvls.items_perm slot).mem_iff, List.mem_map]
    rfl

/-! ## Calls -/

theorem Consistent.registerDomain (name : Octets) :
    Consistent (registry.registerDomain listOps name ()).2.1 := by
  simp only [Registry.registerDomain]
  split_ifs with empty known
  · exact consistent
  · exact consistent
  · have absent : name ∉ registry.domains := by
      intro member
      obtain ⟨value, found⟩ := Option.isSome_iff_exists.mp (AList.lookup_isSome.mpr member)
      obtain rfl := consistent.domainValues name value found
      exact known (by rw [found]; rfl)
    refine ⟨?_, ?_, ?_, consistent.vars, consistent.nvls⟩
    · intro other value found
      by_cases same : other = name
      · subst same
        simpa using found.symm
      · rw [AList.lookup_insert_ne same] at found
        exact consistent.domainValues other value found
    · exact consistent.domainAscending.insertSorted fun member =>
        absent ((consistent.domainMembers name).mp member)
    · intro other
      rw [AList.mem_insert, ← consistent.domainMembers]
      exact mem_insertSorted

/-- Only the lists change in a consistent registry. -/
theorem Consistent.with_nvls {nvls : Table NVLEntry (List Octets)} (kept : nvls.Consistent) :
    Consistent { registry with nvls := nvls } :=
  ⟨consistent.domainValues, consistent.domainAscending, consistent.domainMembers,
    consistent.vars, kept⟩

theorem Consistent.deleteNVL (name : EntryName) :
    Consistent (registry.deleteNVL listOps name ()).2.1 := by
  unfold Registry.deleteNVL
  split
  · exact consistent
  rename_i entry found
  split
  · exact consistent
  · exact consistent.with_nvls (consistent.nvls.remove found)

/-- The bulk delete of a slot over its own order list. -/
theorem Consistent.bulkDelete (slot : Slot) {scope : Int64} {domain : Octets}
    (shape : ∀ itemID, (⟨scope, domain, itemID⟩ : EntryName) = slot.name itemID) :
    ∃ tally nvls, deleteAll listOps scope domain (registry.nvls.slotOrder slot) registry.nvls () =
        (tally, nvls, ()) ∧ nvls.Consistent ∧
      BulkDeleted registry slot (tally, { registry with nvls := nvls }, ()) := by
  obtain ⟨final, run, kept, left⟩ := deleteAll_spec slot shape
    (consistent.nvls.ascending slot).nodup consistent.nvls 0 0
  have perm := consistent.nvls.items_perm slot
  refine ⟨_, final, run, kept, ?_, ?_, ?_, rfl, rfl, rfl⟩
  · have all : ∀ itemID ∈ registry.nvls.slotOrder slot,
        (registry.nvls.find (slot.name itemID)).isSome = true := fun itemID member =>
      (consistent.nvls.members slot itemID).mp member
    simp only [Nat.zero_add]
    rw [List.countP_eq_length.mpr all, ← perm.length_eq, List.length_map]
  · simp only [Nat.zero_add]
    rw [← perm.countP_eq, List.countP_map, List.countP_eq_length_filter]
    congr 1
    refine List.filter_congr fun entry member => ?_
    have found := (consistent.nvls.mem_inSlot slot entry).mp member
    simp [deletes, found]
  · intro name
    change final.find name = (registry.nvls.find name).filter _
    rw [left]
    cases found : registry.nvls.find name with
    | none => rfl
    | some entry =>
      have listed : slot.has entry.toEntryName = true →
          entry.itemID ∈ registry.nvls.slotOrder slot := by
        intro has
        obtain ⟨named, plain⟩ := consistent.nvls.name_of_find found
        have whole := ((named ▸ plain : Plain (Entry.name entry)).has_iff slot).mp has
        rw [consistent.nvls.members]
        change (registry.nvls.find (slot.name (Entry.name entry).itemID)).isSome = true
        rw [← whole, named, found]
        rfl
      rw [Option.filter_some, Option.filter_some]
      cases has : slot.has entry.toEntryName with
      | false => simp [survives, has]
      | true => simp [survives, has, listed has]

theorem Consistent.deleteAllDomainNVLs (domain : Octets) :
    Consistent (registry.deleteAllDomainNVLs listOps domain ()).2.1 ∧
      BulkDeleted registry (.domain domain) (registry.deleteAllDomainNVLs listOps domain ()) := by
  obtain ⟨tally, nvls, run, kept, bulk⟩ := consistent.bulkDelete (.domain domain) fun _ => rfl
  have result : registry.deleteAllDomainNVLs listOps domain () =
      (tally, { registry with nvls := nvls }, ()) := by
    simp only [Registry.deleteAllDomainNVLs]
    exact congrArg (fun result => (result.1, { registry with nvls := result.2.1 }, result.2.2)) run
  rw [result]
  exact ⟨consistent.with_nvls kept, bulk⟩

theorem Consistent.deleteAllVMDNVLs :
    Consistent (registry.deleteAllVMDNVLs listOps ()).2.1 ∧
      BulkDeleted registry .vmd (registry.deleteAllVMDNVLs listOps ()) := by
  obtain ⟨tally, nvls, run, kept, bulk⟩ := consistent.bulkDelete .vmd fun _ => rfl
  have result : registry.deleteAllVMDNVLs listOps () =
      (tally, { registry with nvls := nvls }, ()) := by
    simp only [Registry.deleteAllVMDNVLs]
    exact congrArg (fun result => (result.1, { registry with nvls := result.2.1 }, result.2.2)) run
  rw [result]
  exact ⟨consistent.with_nvls kept, bulk⟩

/-- One call keeps the invariant. -/
theorem Consistent.perform {call : Call Any}
    (named : call.WellNamed) : Consistent (call.perform listOps registry ()).2.1 := by
  cases call with
  | registerDomain name => exact consistent.registerDomain name
  | registerVariable entry =>
    exact ⟨consistent.domainValues, consistent.domainAscending, consistent.domainMembers,
      consistent.vars.register registry.domains named, consistent.nvls⟩
  | defineNVL entry =>
    exact consistent.with_nvls (consistent.nvls.register registry.domains named)
  | deleteNVL name => exact consistent.deleteNVL name
  | deleteAllDomainNVLs domain => exact (consistent.deleteAllDomainNVLs domain).1
  | deleteAllVMDNVLs => exact consistent.deleteAllVMDNVLs.1

end Kept

theorem Consistent.performAll (consistent : Consistent registry) {calls : List (Call Any)}
    (named : ∀ call ∈ calls, call.WellNamed) : Consistent (performAll calls registry) := by
  induction calls generalizing registry with
  | nil => exact consistent
  | cons call calls ih =>
    exact ih (consistent.perform (named call List.mem_cons_self))
      fun later member => named later (List.mem_cons_of_mem _ member)

/-- A refused call changes nothing, in any registry. -/
theorem perform_refused (call : Call Any) (registry : Registry Any (List Octets))
    (refused : (call.perform listOps registry ()).1.refused = true) :
    (call.perform listOps registry ()).2.1 = registry := by
  cases call with
  | registerDomain name =>
    simp only [Call.perform, Registry.registerDomain] at refused ⊢
    split_ifs at refused ⊢ <;> first | rfl | exact nomatch refused
  | registerVariable entry =>
    simp only [Call.perform, Registry.registerVariable] at refused ⊢
    cases result : (registry.vars.register listOps registry.domains entry ()).1 with
    | ok done =>
      rw [result] at refused
      exact nomatch refused
    | error error => rw [Table.register_error registry.domains result]
  | defineNVL entry =>
    simp only [Call.perform, Registry.defineNVL] at refused ⊢
    cases result : (registry.nvls.register listOps registry.domains entry ()).1 with
    | ok done =>
      rw [result] at refused
      exact nomatch refused
    | error error => rw [Table.register_error registry.domains result]
  | deleteNVL name =>
    simp only [Call.perform, Registry.deleteNVL] at refused ⊢
    split at refused
    · rfl
    · split at refused
      · next locked => simp [locked]
      · exact nomatch refused
  | deleteAllDomainNVLs domain => exact nomatch refused
  | deleteAllVMDNVLs => exact nomatch refused

end Registry

/-- After every sequence of calls on plain names a new registry represents its maps, a refused
call leaves it as it was, and the bulk deletes remove and count exactly the deletable lists of
their slot. -/
theorem registry_represented (calls : List (Call Any)) (named : ∀ call ∈ calls, call.WellNamed) :
    (performAll calls (Registry.new listOps)).Represented ∧
      (∀ call : Call Any,
        (call.perform listOps (performAll calls (Registry.new listOps)) ()).1.refused = true →
          (call.perform listOps (performAll calls (Registry.new listOps)) ()).2.1 =
            performAll calls (Registry.new listOps)) ∧
      (∀ domain, Registry.BulkDeleted (performAll calls (Registry.new listOps)) (.domain domain)
        ((performAll calls (Registry.new listOps)).deleteAllDomainNVLs listOps domain ())) ∧
      Registry.BulkDeleted (performAll calls (Registry.new listOps)) .vmd
        ((performAll calls (Registry.new listOps)).deleteAllVMDNVLs listOps ()) := by
  have consistent := Registry.Consistent.performAll (@Registry.consistent_new Any) named
  exact ⟨consistent.represented, fun call refused => Registry.perform_refused call _ refused,
    fun domain => (consistent.deleteAllDomainNVLs domain).2, consistent.deleteAllVMDNVLs.2⟩

/-- A domain `d` with a variable `x`, and two lists of the VMD of which one can be deleted. -/
def sampleCalls : List (Call Unit) :=
  [.registerDomain [0x64], .registerVariable ⟨⟨1, [0x64], [0x78]⟩, (), false, (), ()⟩,
    .defineNVL ⟨⟨0, [], [0x6c]⟩, true, []⟩, .defineNVL ⟨⟨0, [], [0x6b]⟩, false, []⟩,
    .deleteAllVMDNVLs]

theorem registry_represented_sampleCalls :
    (performAll sampleCalls (Registry.new listOps)).nvls.vmdOrder = [[0x6b]] ∧
      (performAll sampleCalls (Registry.new listOps)).Represented := by
  refine ⟨by decide +kernel, (registry_represented sampleCalls ?_).1⟩
  intro call member
  simp only [sampleCalls, List.mem_cons, List.not_mem_nil, or_false] at member
  rcases member with rfl | rfl | rfl | rfl | rfl
  · trivial
  · exact ⟨.inr rfl, by decide, by decide⟩
  · exact ⟨.inl ⟨rfl, rfl⟩, by decide, by decide⟩
  · exact ⟨.inl ⟨rfl, rfl⟩, by decide, by decide⟩
  · trivial

end GoMms.Servermodel
