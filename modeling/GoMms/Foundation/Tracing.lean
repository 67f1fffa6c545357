import Mathlib.Data.List.Forall2
import GoMms.Foundation.Checked

/-!
# Loops that call out

A loop over items whose passes call out into an environment. The environment has a state of its
own, and the calls made are logged, oldest first. If every pass is described by what it returns
and by the calls it adds, then the whole loop is a list of such passes, one for each item and in
the order of the items (`runAll_traced`).
-/

namespace GoMms.Tracing

universe u

/-- The state of the environment and the calls made so far. -/
structure World (State : Type u) (Event : Type u) where
  state : State
  calls : List Event

variable {State Event : Type u} {Item Result : Type u}

/-- Make a call that moves the environment and is logged together with its outcome. -/
def World.call {Outcome : Type u} (world : World State Event) (effect : State → Outcome × State)
    (event : Outcome → Event) : Outcome × World State Event :=
  let (outcome, state) := effect world.state
  (outcome, ⟨state, world.calls ++ [event outcome]⟩)

/-- Run a pass for each item and collect what the passes return. -/
def runAll (pass : Item → World State Event → Result × World State Event) :
    List Item → World State Event → List Result × World State Event
  | [], world => ([], world)
  | item :: items, world =>
    let (result, world) := pass item world
    let (results, world) := runAll pass items world
    (result :: results, world)

/-- Run passes that may cause a fault; the first one that does ends the loop. -/
def runAllChecked (pass : Item → World State Event → Except Fault (Result × World State Event)) :
    List Item → World State Event → Except Fault (List Result × World State Event)
  | [], world => .ok ([], world)
  | item :: items, world => do
      let (result, world) ← pass item world
      let (results, world) ← runAllChecked pass items world
      return (result :: results, world)

variable {pass : Item → World State Event → Result × World State Event}

@[simp] theorem runAll_nil (world : World State Event) : runAll pass [] world = ([], world) := rfl

@[simp] theorem runAll_cons (item : Item) (items : List Item) (world : World State Event) :
    runAll pass (item :: items) world =
      ((pass item world).1 :: (runAll pass items (pass item world).2).1,
        (runAll pass items (pass item world).2).2) := rfl

/-- What every pass returns and adds to the log, the loop returns and adds item by item. -/
theorem runAll_traced (describes : Item → Result → List Event → Prop)
    (step : ∀ item world, ∃ trace, (pass item world).2.calls = world.calls ++ trace ∧
      describes item (pass item world).1 trace)
    (items : List Item) (world : World State Event) :
    ∃ runs : List (Result × List Event), (runAll pass items world).1 = runs.map Prod.fst ∧
      (runAll pass items world).2.calls = world.calls ++ runs.flatMap Prod.snd ∧
      List.Forall₂ (fun item run => describes item run.1 run.2) items runs := by
  induction items generalizing world with
  | nil => exact ⟨[], rfl, by simp, .nil⟩
  | cons item items ih =>
    obtain ⟨trace, logged, described⟩ := step item world
    obtain ⟨runs, results, calls, rest⟩ := ih (pass item world).2
    refine ⟨((pass item world).1, trace) :: runs, ?_, ?_, .cons described rest⟩
    · rw [runAll_cons, results, List.map_cons]
    · rw [runAll_cons, calls, logged, List.flatMap_cons, List.append_assoc]

section Paired

variable {α β : Type*} {R : α → β → Prop} {items : List α} {runs : List β}

/-- Every item has its run. -/
theorem exists_of_forall₂_left (paired : List.Forall₂ R items runs) {item : α}
    (member : item ∈ items) : ∃ run ∈ runs, R item run := by
  induction paired with
  | nil => cases member
  | cons related _ ih =>
    rcases List.mem_cons.mp member with rfl | later
    · exact ⟨_, List.mem_cons_self, related⟩
    · obtain ⟨run, among, others⟩ := ih later
      exact ⟨run, List.mem_cons_of_mem _ among, others⟩

/-- Every run is that of an item. -/
theorem exists_of_forall₂_right (paired : List.Forall₂ R items runs) {run : β}
    (member : run ∈ runs) : ∃ item ∈ items, R item run :=
  exists_of_forall₂_left (R := flip R) paired.flip member

/-- What is known of an item may be used for its run. -/
theorem forall₂_imp_of_mem {S : α → β → Prop} (paired : List.Forall₂ R items runs)
    (each : ∀ item ∈ items, ∀ run, R item run → S item run) : List.Forall₂ S items runs := by
  rw [List.forall₂_iff_zip] at paired ⊢
  exact ⟨paired.1, fun {item run} among =>
    each item (List.of_mem_zip among).1 run (paired.2 among)⟩

/-- What holds of an item if and only if it holds of its run, holds of all of both. -/
theorem forall_mem_iff_of_forall₂ {P : α → Prop} {Q : β → Prop}
    (paired : List.Forall₂ R items runs)
    (each : ∀ item ∈ items, ∀ run, R item run → (P item ↔ Q run)) :
    (∀ item ∈ items, P item) ↔ ∀ run ∈ runs, Q run := by
  constructor
  · intro all run member
    obtain ⟨item, among, related⟩ := exists_of_forall₂_right paired member
    exact (each item among run related).mp (all item among)
  · intro all item member
    obtain ⟨run, among, related⟩ := exists_of_forall₂_left paired member
    exact (each item member run related).mpr (all run among)

/-- The last item has the last run. -/
theorem exists_getLast_of_forall₂ (paired : List.Forall₂ R items runs) (nonempty : items ≠ []) :
    ∃ item run, items.getLast? = some item ∧ runs.getLast? = some run ∧ R item run := by
  induction paired with
  | nil => exact absurd rfl nonempty
  | @cons item run items runs related rest ih =>
    cases rest with
    | nil => exact ⟨item, run, rfl, rfl, related⟩
    | cons next others =>
      obtain ⟨last, lastRun, ends, runEnds, same⟩ := ih (List.cons_ne_nil _ _)
      exact ⟨last, lastRun, by rwa [List.getLast?_cons_cons], by rwa [List.getLast?_cons_cons],
        same⟩

/-- Items can be paired if each of them can. -/
theorem exists_forall₂_iff :
    (∃ runs, List.Forall₂ R items runs) ↔ ∀ item ∈ items, ∃ run, R item run := by
  constructor
  · rintro ⟨runs, paired⟩ item member
    obtain ⟨run, -, related⟩ := exists_of_forall₂_left paired member
    exact ⟨run, related⟩
  · intro each
    induction items with
    | nil => exact ⟨[], .nil⟩
    | cons item items ih =>
      obtain ⟨run, related⟩ := each item List.mem_cons_self
      obtain ⟨runs, paired⟩ := ih fun other member => each other (List.mem_cons_of_mem _ member)
      exact ⟨run :: runs, .cons related paired⟩

/-- A loop that converts the items one by one, or stops at the first that cannot be. -/
theorem mapM_eq_ok_iff {Error : Type*} {convert : α → Except Error β} :
    items.mapM convert = .ok runs ↔
      List.Forall₂ (fun item run => convert item = .ok run) items runs := by
  induction items generalizing runs with
  | nil =>
    rw [List.mapM_nil, List.forall₂_nil_left_iff]
    exact ⟨fun same => (Except.ok.inj same).symm, fun same => congrArg Except.ok same.symm⟩
  | cons item items ih =>
    rw [List.mapM_cons, List.forall₂_cons_left_iff]
    cases convert item with
    | error error => simp [bind, Except.bind]
    | ok first =>
      simp only [← ih]
      cases items.mapM convert with
      | error error => simp [bind, Except.bind]
      | ok rest => simp [bind, Except.bind, pure, Except.pure, eq_comm]

end Paired

end GoMms.Tracing
