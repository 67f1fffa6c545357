import GoMms.Foundation.Machine
import GoMms.Servermodel.Consistency

/-!
# Exactness of registry lookups

Names are arbitrary strings, and a key does not determine the name it was made from. The
registry answers for the name it is asked about as long as no stored name is shifted against
that name; two shifted names are taken for each other.
-/

namespace GoMms.Servermodel

variable {Any : Type}

/-! ## What a call stores -/

section Stored

variable {E : Type} [Entry E] {table : Table E (List Octets)} {key : Octets} {entry found : E}

variable {domains : AList fun _ : Octets => Bool} {scope : Int64} {domain : Octets}
  {list : NVLEntry} {state : (Nat × Nat) × Table NVLEntry (List Octets) × Unit}

/-- A registration that is not refused stores its entry under the entry's key; nothing else
appears. -/
theorem Table.lookup_register
    (stored : (table.register listOps domains entry ()).2.1.entries.lookup key = some found) :
    table.entries.lookup key = some found ∨
      (table.register listOps domains entry ()).1 = .ok () ∧ key = Entry.key entry ∧
        found = entry := by
  simp only [Table.register] at stored ⊢
  split_ifs at stored ⊢ with empty required registered exists_
  · exact .inl stored
  · exact .inl stored
  · exact .inl stored
  · exact .inl stored
  · rw [Table.lookup_add] at stored
    split_ifs at stored with same
    · exact .inr ⟨rfl, same, (Option.some.inj stored).symm⟩
    · exact .inl stored

/-- A registration is refused as a duplicate only if its key is taken. -/
theorem Table.find_of_entryExists {kind : EntryKind}
    (refused : (table.register listOps domains entry ()).1 = .error (.entryExists kind key)) :
    (table.find (Entry.name entry)).isSome = true := by
  simp only [Table.register] at refused
  split_ifs at refused with empty required registered exists_
  all_goals first | exact exists_ | cases refused

theorem Table.lookup_of_remove {name : EntryName}
    (stored : (table.remove listOps name ()).1.entries.lookup key = some found) :
    table.entries.lookup key = some found := by
  rw [Table.lookup_remove] at stored
  exact (ite_eq_iff.mp stored).elim (fun absent => nomatch absent.2) And.right

theorem lookup_deleteOne {itemID : Octets}
    (stored : (deleteOne listOps scope domain state itemID).2.1.entries.lookup key = some list) :
    state.2.1.entries.lookup key = some list := by
  unfold deleteOne at stored
  simp only at stored
  split at stored
  · exact stored
  · split at stored
    · exact Table.lookup_of_remove stored
    · exact stored

theorem lookup_deleteAll {names : List Octets}
    (stored : (names.foldl (deleteOne listOps scope domain) state).2.1.entries.lookup key =
      some list) : state.2.1.entries.lookup key = some list := by
  induction names generalizing state with
  | nil => exact stored
  | cons itemID names ih => exact lookup_deleteOne (ih stored)

end Stored

/-! ## Runs -/

/-- A use of the registry: a call that changes it, or a lookup. -/
inductive Access (Any : Type) where
  | call (call : Call Any)
  | lookupVariable (name : EntryName)
  | lookupNVL (name : EntryName)

/-- A registry and the entries whose registration returned nil. -/
structure History (Any : Type) where
  registry : Registry Any (List Octets)
  registeredVars : List (VarEntry Any) := []
  registeredNVLs : List NVLEntry := []

namespace History

def new : History Any := { registry := Registry.new listOps }

/-- Record a registration that returned nil. -/
def record (history : History Any) (call : Call Any) (outcome : Outcome) : History Any :=
  match call, outcome with
  | .registerVariable entry, .error (.ok ()) =>
    { history with registeredVars := history.registeredVars ++ [entry] }
  | .defineNVL entry, .error (.ok ()) =>
    { history with registeredNVLs := history.registeredNVLs ++ [entry] }
  | _, _ => history

/-- Every access is possible in every state; lookups change nothing. -/
def step (history : History Any) : Access Any → Option (History Any)
  | .call call =>
    let (outcome, registry, _) := call.perform listOps history.registry ()
    some { history.record call outcome with registry := registry }
  | .lookupVariable _ | .lookupNVL _ => some history

/-- No stored entry has a name shifted against this one. -/
def Unambiguous {E : Type} [Entry E] (table : Table E (List Octets)) (name : EntryName) : Prop :=
  ∀ key entry, table.entries.lookup key = some entry →
    ¬ Shifted name (Entry.name entry) ∧ ¬ Shifted (Entry.name entry) name

/-- The name an access asks about is not shifted against a stored name of its kind. -/
def Unshifted (history : History Any) : Access Any → Prop
  | .call (.registerVariable entry) => Unambiguous history.registry.vars entry.toEntryName
  | .call (.defineNVL entry) => Unambiguous history.registry.nvls entry.toEntryName
  | .call (.deleteNVL name) => Unambiguous history.registry.nvls name
  | .lookupVariable name => Unambiguous history.registry.vars name
  | .lookupNVL name => Unambiguous history.registry.nvls name
  | _ => True

/-- An entry with exactly this name is in the map. -/
def Present {E : Type} [Entry E] (table : Table E (List Octets)) (name : EntryName) : Prop :=
  ∃ key entry, table.entries.lookup key = some entry ∧ Entry.name entry = name

/-- The registry answers an access for exactly the name it was asked about. -/
def Exact (history : History Any) : Access Any → Prop
  | .lookupVariable name => ∀ entry, history.registry.lookupVariable name = some entry →
      entry.toEntryName = name ∧ entry ∈ history.registeredVars
  | .lookupNVL name => ∀ entry, history.registry.lookupNVL name = some entry →
      entry.toEntryName = name ∧ entry ∈ history.registeredNVLs
  | .call (.registerVariable entry) => ∀ kind key,
      (history.registry.registerVariable listOps entry ()).1 = .error (.entryExists kind key) →
        Present history.registry.vars entry.toEntryName
  | .call (.defineNVL entry) => ∀ kind key,
      (history.registry.defineNVL listOps entry ()).1 = .error (.entryExists kind key) →
        Present history.registry.nvls entry.toEntryName
  | .call (.deleteNVL name) => ∀ key entry,
      history.registry.nvls.entries.lookup key = some entry → entry.toEntryName ≠ name →
        (history.registry.deleteNVL listOps name ()).2.1.nvls.entries.lookup key = some entry
  | _ => True

/-- Entries sit under their own keys and were registered. -/
structure Keyed (history : History Any) : Prop where
  vars : ∀ key entry, history.registry.vars.entries.lookup key = some entry →
    key = Entry.key entry ∧ entry ∈ history.registeredVars
  nvls : ∀ key entry, history.registry.nvls.entries.lookup key = some entry →
    key = Entry.key entry ∧ entry ∈ history.registeredNVLs

theorem keyed_new : Keyed (new : History Any) where
  vars key entry found := by simp [new, Registry.new, Table.new] at found
  nvls key entry found := by simp [new, Registry.new, Table.new] at found

variable {history next : History Any}

theorem step_call (history : History Any) (call : Call Any) :
    step history (.call call) = some
      { history.record call (call.perform listOps history.registry ()).1 with
        registry := (call.perform listOps history.registry ()).2.1 } := rfl

theorem Keyed.registerVariable (keyed : Keyed history) (entry : VarEntry Any)
    (taken : step history (.call (.registerVariable entry)) = some next) : Keyed next := by
  rw [step_call, Option.some.injEq] at taken
  subst taken
  simp only [Call.perform, Registry.registerVariable]
  cases result : (history.registry.vars.register listOps history.registry.domains entry ()).1 with
  | error error =>
    rw [Table.register_error history.registry.domains result]
    exact keyed
  | ok done =>
    refine ⟨fun key found stored => ?_, keyed.nvls⟩
    simp only [record, List.mem_append, List.mem_singleton]
    rcases Table.lookup_register stored with earlier | ⟨-, rfl, rfl⟩
    · exact (keyed.vars key found earlier).imp_right .inl
    · exact ⟨rfl, .inr rfl⟩

theorem Keyed.defineNVL (keyed : Keyed history) (entry : NVLEntry)
    (taken : step history (.call (.defineNVL entry)) = some next) : Keyed next := by
  rw [step_call, Option.some.injEq] at taken
  subst taken
  simp only [Call.perform, Registry.defineNVL]
  cases result : (history.registry.nvls.register listOps history.registry.domains entry ()).1 with
  | error error =>
    rw [Table.register_error history.registry.domains result]
    exact keyed
  | ok done =>
    refine ⟨keyed.vars, fun key found stored => ?_⟩
    simp only [record, List.mem_append, List.mem_singleton]
    rcases Table.lookup_register stored with earlier | ⟨-, rfl, rfl⟩
    · exact (keyed.nvls key found earlier).imp_right .inl
    · exact ⟨rfl, .inr rfl⟩

/-- A call that only takes lists away keeps the entries under their keys. -/
theorem Keyed.shrink (keyed : Keyed history) {registry : Registry Any (List Octets)}
    (vars : registry.vars = history.registry.vars)
    (fewer : ∀ key entry, registry.nvls.entries.lookup key = some entry →
      history.registry.nvls.entries.lookup key = some entry) :
    Keyed { history with registry := registry } where
  vars := by
    simp only [vars]
    exact keyed.vars
  nvls key entry stored := keyed.nvls key entry (fewer key entry stored)

theorem Keyed.preserved (keyed : Keyed history) {access : Access Any}
    (taken : step history access = some next) : Keyed next := by
  cases access with
  | lookupVariable | lookupNVL => exact Option.some.inj taken ▸ keyed
  | call call =>
    cases call with
    | registerDomain name =>
      rw [step_call, Option.some.injEq] at taken
      subst taken
      refine keyed.shrink ?_ ?_
      · simp only [Call.perform, Registry.registerDomain]
        split_ifs <;> rfl
      · intro key entry
        simp only [Call.perform, Registry.registerDomain]
        split_ifs <;> exact id
    | registerVariable entry => exact keyed.registerVariable entry taken
    | defineNVL entry => exact keyed.defineNVL entry taken
    | deleteNVL name =>
      rw [step_call, Option.some.injEq] at taken
      subst taken
      refine keyed.shrink ?_ ?_
      · simp only [Call.perform, Registry.deleteNVL]
        split
        · rfl
        · split <;> rfl
      · intro key entry
        simp only [Call.perform, Registry.deleteNVL]
        split
        · exact id
        · split
          · exact id
          · exact Table.lookup_of_remove
    | deleteAllDomainNVLs | deleteAllVMDNVLs =>
      rw [step_call, Option.some.injEq] at taken
      subst taken
      exact keyed.shrink rfl fun key entry stored => lookup_deleteAll stored

variable {E : Type}

/-- The entry stored under the key of an unambiguous name has that name and was registered. -/
theorem exact_of_unambiguous [Entry E] {table : Table E (List Octets)} {registered : List E}
    {name : EntryName} {entry : E} (keyed : ∀ key entry, table.entries.lookup key = some entry →
      key = Entry.key entry ∧ entry ∈ registered) (unambiguous : Unambiguous table name)
    (found : table.find name = some entry) : Entry.name entry = name ∧ entry ∈ registered := by
  obtain ⟨forward, backward⟩ := unambiguous _ entry found
  obtain ⟨key, known⟩ := keyed _ entry found
  refine ⟨?_, known⟩
  rcases (key_eq_iff _ _ _).mp key with same | shifted | shifted
  · exact same.symm
  · exact (forward shifted).elim
  · exact (backward shifted).elim

/-- Under the condition every access is exact. -/
theorem Keyed.exact (keyed : Keyed history) (access : Access Any)
    (unshifted : Unshifted history access) : Exact history access := by
  cases access with
  | lookupVariable name => exact fun entry => exact_of_unambiguous keyed.vars unshifted
  | lookupNVL name => exact fun entry => exact_of_unambiguous keyed.nvls unshifted
  | call call =>
    cases call with
    | registerVariable entry =>
      intro kind key refused
      obtain ⟨other, found⟩ := Option.isSome_iff_exists.mp (Table.find_of_entryExists refused)
      exact ⟨_, other, found, (exact_of_unambiguous keyed.vars unshifted found).1⟩
    | defineNVL entry =>
      intro kind key refused
      obtain ⟨other, found⟩ := Option.isSome_iff_exists.mp (Table.find_of_entryExists refused)
      exact ⟨_, other, found, (exact_of_unambiguous keyed.nvls unshifted found).1⟩
    | deleteNVL name =>
      intro key entry stored different
      have untouched : key ≠ EntryKind.nvl.key name := by
        rintro rfl
        exact different (exact_of_unambiguous keyed.nvls unshifted stored).1
      simp only [Registry.deleteNVL]
      split
      · exact stored
      · split
        · exact stored
        · exact (Table.lookup_remove name key).trans ((if_neg untouched).trans stored)
    | registerDomain | deleteAllDomainNVLs | deleteAllVMDNVLs => trivial

/-- In every run in which no access asks about a name shifted against a stored one, every access
is exact. -/
theorem registry_exact (accesses : List (Access Any))
    (unshifted : Machine.AllSteps step Unshifted new accesses) :
    Machine.AllSteps step Exact (new : History Any) accesses :=
  Machine.AllSteps.of_invariant Keyed (fun _ _ _ _ keyed taken => keyed.preserved taken)
    (fun _ access unshifted keyed => keyed.exact access unshifted) keyed_new unshifted

/-! ## Runs with and without slashes -/

theorem not_shifted_self (name : EntryName) : ¬ Shifted name name := by
  rintro ⟨-, middle, domain, -⟩
  have length := congrArg List.length domain
  simp at length

/-- Ambiguity is a matter of equal formatted names. -/
theorem unambiguous_iff [Entry E] (table : Table E (List Octets)) (name : EntryName) :
    Unambiguous table name ↔ ∀ item ∈ table.entries.entries,
      (Entry.name item.2).format = name.format → Entry.name item.2 = name := by
  constructor
  · rintro unambiguous ⟨key, entry⟩ member same
    obtain ⟨forward, backward⟩ := unambiguous key entry (AList.mem_lookup_iff.mpr member)
    rcases (format_eq_iff _ _).mp same with equal | shifted | shifted
    · exact equal
    · exact (backward shifted).elim
    · exact (forward shifted).elim
  · intro equal key entry stored
    have member := AList.mem_lookup_iff.mp stored
    constructor
    · intro shifted
      have same := equal _ member shifted.format_eq.symm
      exact not_shifted_self name (same ▸ shifted)
    · intro shifted
      have same := equal _ member shifted.format_eq
      exact not_shifted_self name (same ▸ shifted)

instance {E : Type} [Entry E] (table : Table E (List Octets)) (name : EntryName) :
    Decidable (Unambiguous table name) :=
  decidable_of_iff _ (unambiguous_iff table name).symm

instance (history : History Any) (access : Access Any) : Decidable (Unshifted history access) :=
  match access with
  | .call (.registerVariable entry) =>
    inferInstanceAs (Decidable (Unambiguous history.registry.vars entry.toEntryName))
  | .call (.defineNVL entry) =>
    inferInstanceAs (Decidable (Unambiguous history.registry.nvls entry.toEntryName))
  | .call (.deleteNVL name) =>
    inferInstanceAs (Decidable (Unambiguous history.registry.nvls name))
  | .lookupVariable name => inferInstanceAs (Decidable (Unambiguous history.registry.vars name))
  | .lookupNVL name => inferInstanceAs (Decidable (Unambiguous history.registry.nvls name))
  | .call (.registerDomain _) | .call (.deleteAllDomainNVLs _) | .call .deleteAllVMDNVLs =>
    .isTrue trivial

/-- Item `c` of domain `a/b`. -/
def nested : EntryName := ⟨1, [0x61, 0x2f, 0x62], [0x63]⟩

/-- Item `b/c` of domain `a`. -/
def slashed : EntryName := ⟨1, [0x61], [0x62, 0x2f, 0x63]⟩

/-- Register domain `a/b` with a variable and a list `c`, and domain `a`. -/
def nestedSetup : List (Access Unit) :=
  [.call (.registerDomain nested.domain), .call (.registerDomain slashed.domain),
    .call (.registerVariable ⟨nested, (), false, (), ()⟩), .call (.defineNVL ⟨nested, true, []⟩)]

theorem registry_exact_nestedSetup :
    Machine.AllSteps step Exact new (nestedSetup ++ [.lookupVariable nested]) :=
  registry_exact (nestedSetup ++ [.lookupVariable nested]) (by decide +kernel)

/-- After the setup the other name finds the variable, cannot be registered although it is
absent, and deletes the list. -/
theorem registry_confusesShifted :
    ¬ Machine.AllSteps step Exact new (nestedSetup ++ [.lookupVariable slashed]) ∧
      ¬ Machine.AllSteps step Exact new
        (nestedSetup ++ [.call (.registerVariable ⟨slashed, (), false, (), ()⟩)]) ∧
      ¬ Machine.AllSteps step Exact new (nestedSetup ++ [.call (.deleteNVL slashed)]) := by
  have facts : (Machine.run step new nestedSetup).map (fun history => decide
      ((history.registry.lookupVariable slashed).map (·.toEntryName) = some nested ∧
        (history.registry.registerVariable listOps ⟨slashed, (), false, (), ()⟩ ()).1 =
          .error (.entryExists .var slashed.format) ∧
        (∀ item ∈ history.registry.vars.entries.entries, item.2.toEntryName ≠ slashed) ∧
        history.registry.lookupNVL nested = some ⟨nested, true, []⟩ ∧
        (history.registry.deleteNVL listOps slashed ()).2.1.lookupNVL nested = none)) =
      some true := by
    decide +kernel
  obtain ⟨history, reached, same⟩ := Option.map_eq_some_iff.mp facts
  obtain ⟨found, refused, absent, listed, deleted⟩ := of_decide_eq_true same
  refine ⟨fun all => ?_, fun all => ?_, fun all => ?_⟩
  · obtain ⟨entry, stored, named⟩ := Option.map_eq_some_iff.mp found
    have exactName := (all.last reached entry stored).1
    exact absurd (named.symm.trans exactName) (by decide)
  · obtain ⟨key, entry, stored, named⟩ := all.last reached .var slashed.format refused
    exact absent ⟨key, entry⟩ (AList.mem_lookup_iff.mp stored) named
  · have kept := all.last reached _ ⟨nested, true, []⟩ listed (by decide)
    exact nomatch kept.symm.trans deleted

end History
end GoMms.Servermodel
