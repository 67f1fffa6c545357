import Mathlib.Tactic

/-!
# Step machines

A concurrent component is a state and a partial step function whose events carry every choice
the scheduler makes. A run is a list of events, each taken in the state the previous ones
reached; an event that is not enabled ends the attempt. The rules below turn what one step
preserves into what every run preserves, under a condition on the steps that are taken.
-/

namespace GoMms.Machine

universe u v

variable {State : Type u} {Event : Type v} (step : State → Event → Option State)

/-- Take the events one after another. -/
def run : State → List Event → Option State
  | state, [] => some state
  | state, event :: events =>
    match step state event with
    | none => none
    | some next => run next events

/-- Every step of the run is taken in a state and with an event that meet the condition. -/
def AllSteps (meets : State → Event → Prop) : State → List Event → Prop
  | _, [] => True
  | state, event :: events =>
    meets state event ∧
      match step state event with
      | none => True
      | some next => AllSteps meets next events

instance AllSteps.decidable (meets : State → Event → Prop)
    [∀ state event, Decidable (meets state event)] (state : State) (events : List Event) :
    Decidable (AllSteps step meets state events) :=
  match events with
  | [] => .isTrue trivial
  | event :: events =>
    match taken : step state event with
    | none => decidable_of_iff (meets state event) (by simp [AllSteps, taken])
    | some next =>
      have := AllSteps.decidable meets next events
      decidable_of_iff (meets state event ∧ AllSteps step meets next events)
        (by simp [AllSteps, taken])

variable {step}

@[simp] theorem run_nil (state : State) : run step state [] = some state := rfl

variable {state final : State} {event : Event} {events : List Event} {meets : State → Event → Prop}

theorem run_cons_eq_some (reached : run step state (event :: events) = some final) :
    ∃ next, step state event = some next ∧ run step next events = some final := by
  unfold run at reached
  split at reached
  · cases reached
  · next next taken => exact ⟨next, taken, reached⟩

theorem AllSteps.head (all : AllSteps step meets state (event :: events)) : meets state event :=
  all.1

theorem AllSteps.tail {next : State} (all : AllSteps step meets state (event :: events))
    (taken : step state event = some next) : AllSteps step meets next events := by
  have rest := all.2
  rwa [taken] at rest

theorem AllSteps.and {first second : State → Event → Prop} (left : AllSteps step first state events)
    (right : AllSteps step second state events) :
    AllSteps step (fun state event => first state event ∧ second state event) state events := by
  induction events generalizing state with
  | nil => trivial
  | cons event events ih =>
    refine ⟨⟨left.head, right.head⟩, ?_⟩
    split
    · trivial
    · next taken => exact ih (left.tail taken) (right.tail taken)

/-- A condition on the events alone holds at every step of the run. -/
theorem AllSteps.of_events {meets : Event → Prop} {events : List Event}
    (all : ∀ event ∈ events, meets event) (state : State) :
    AllSteps step (fun _ event => meets event) state events := by
  induction events generalizing state with
  | nil => trivial
  | cons event events ih =>
    refine ⟨all event List.mem_cons_self, ?_⟩
    split
    · trivial
    · exact ih (fun later member => all later (List.mem_cons_of_mem _ member)) _

/-- The invariant may mention the events taken so far. -/
theorem run_invariant_history (invariant : List Event → State → Prop)
    (keeps : ∀ past state event next, meets state event → invariant past state →
      step state event = some next → invariant (past ++ [event]) next) (past : List Event)
    (start : invariant past state) (all : AllSteps step meets state events)
    (reached : run step state events = some final) : invariant (past ++ events) final := by
  induction events generalizing past state with
  | nil =>
    cases reached
    simpa using start
  | cons event events ih =>
    obtain ⟨next, taken, rest⟩ := run_cons_eq_some reached
    have later := ih (past ++ [event]) (keeps past state event next all.head start taken)
      (all.tail taken) rest
    simpa using later

/-- What every step that meets the condition preserves, a run of such steps preserves. -/
theorem run_invariant (invariant : State → Prop)
    (keeps : ∀ state event next, meets state event → invariant state →
      step state event = some next → invariant next) (start : invariant state)
    (all : AllSteps step meets state events) (reached : run step state events = some final) :
    invariant final :=
  run_invariant_history (fun _ => invariant) (fun _ => keeps) [] start all reached

/-- A run can be extended by a step. -/
theorem run_snoc {middle : State} (reached : run step state events = some middle)
    (taken : step middle event = some final) : run step state (events ++ [event]) = some final := by
  induction events generalizing state with
  | nil =>
    cases reached
    simp [run, taken]
  | cons first events ih =>
    obtain ⟨next, began, rest⟩ := run_cons_eq_some reached
    rw [List.cons_append, run, began]
    exact ih rest

/-- What holds at every step of a run holds at its last one. -/
theorem AllSteps.last (all : AllSteps step meets state (events ++ [event]))
    (reached : run step state events = some final) : meets final event := by
  induction events generalizing state with
  | nil =>
    cases reached
    exact all.head
  | cons first events ih =>
    obtain ⟨next, taken, rest⟩ := run_cons_eq_some reached
    exact ih (all.tail taken) rest

/-- An invariant of the steps that meet the condition gives what it implies at every step. -/
theorem AllSteps.of_invariant {holds : State → Event → Prop} (invariant : State → Prop)
    (keeps : ∀ state event next, meets state event → invariant state →
      step state event = some next → invariant next)
    (gives : ∀ state event, meets state event → invariant state → holds state event)
    (start : invariant state) (all : AllSteps step meets state events) :
    AllSteps step holds state events := by
  induction events generalizing state with
  | nil => trivial
  | cons event events ih =>
    refine ⟨gives state event all.head start, ?_⟩
    split
    · trivial
    · next next taken => exact ih (keeps state event next all.head start taken) (all.tail taken)

end GoMms.Machine
