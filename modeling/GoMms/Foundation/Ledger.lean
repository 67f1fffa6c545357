import Mathlib.Data.Multiset.Basic
import Mathlib.Algebra.Order.Group.Multiset
import Mathlib.Data.Multiset.Count

/-!
# Ledgers of acquired handles

A log of what is done with handles that have to be released: they are acquired, touched and
released, and anything else that happens is a note. Replaying a log keeps the handles held, each
as often as it was acquired and not yet released, and fails at the first use of a handle that is
not held. A log that replays releases no handle more often than it was acquired and touches none
after its last release (`count_of_replay`, `count_lt_of_touch`).
-/

namespace GoMms.Ledger

variable {Handle Note : Type*}

inductive Use (Handle Note : Type*) where
  | acquire (handle : Handle)
  | touch (handle : Handle)
  | release (handle : Handle)
  | note (note : Note)
  deriving DecidableEq, Repr

variable [DecidableEq Handle]

/-- The handles held after one use, if it was of a handle held. -/
def step (held : Multiset Handle) : Use Handle Note → Option (Multiset Handle)
  | .acquire handle => some (handle ::ₘ held)
  | .touch handle => if handle ∈ held then some held else none
  | .release handle => if handle ∈ held then some (held.erase handle) else none
  | .note _ => some held

/-- The handles held after a log. -/
def replay (held : Multiset Handle) : List (Use Handle Note) → Option (Multiset Handle)
  | [] => some held
  | use :: log => (step held use).bind fun held => replay held log

variable {held rest : Multiset Handle} {log more : List (Use Handle Note)}

@[simp] theorem replay_nil : replay held ([] : List (Use Handle Note)) = some held := rfl

theorem replay_append :
    replay held (log ++ more) = (replay held log).bind fun held => replay held more := by
  induction log generalizing held with
  | nil => rfl
  | cons use log ih =>
    simp only [List.cons_append, replay]
    cases step held use with
    | none => rfl
    | some next => exact ih

/-- Logs that replay one after the other replay together. -/
theorem replay_trans {middle : Multiset Handle} (first : replay held log = some middle)
    (second : replay middle more = some rest) : replay held (log ++ more) = some rest := by
  rw [replay_append, first]
  exact second

variable {handle : Handle} {use : Use Handle Note}

theorem replay_touches (member : handle ∈ held) (touches : Nat) :
    replay held (List.replicate touches (Use.touch handle : Use Handle Note)) = some held := by
  induction touches with
  | zero => rfl
  | succ touches ih =>
    rw [List.replicate_succ, replay, step, if_pos member]
    exact ih

/-- A handle that is acquired and touched is held beside the others. -/
theorem replay_acquired (held : Multiset Handle) (handle : Handle) (touches : Nat) :
    replay held (Use.acquire handle ::
        List.replicate touches (Use.touch handle : Use Handle Note)) =
      some (handle ::ₘ held) := by
  rw [replay, step]
  exact replay_touches (Multiset.mem_cons_self handle held) touches

theorem replay_released (held : Multiset Handle) (handle : Handle) :
    replay (handle ::ₘ held) [(Use.release handle : Use Handle Note)] = some held := by
  rw [replay, step, if_pos (Multiset.mem_cons_self handle held), Multiset.erase_cons_head]
  rfl

/-- The part of a log before a use replays, and the use is of what is held then. -/
theorem replay_split (replayed : replay held (log ++ use :: more) = some rest) :
    ∃ middle next, replay held log = some middle ∧ step middle use = some next := by
  rw [replay_append] at replayed
  cases before : replay held log with
  | none =>
    rw [before] at replayed
    cases replayed
  | some middle =>
    rw [before] at replayed
    cases after : step middle use with
    | none =>
      rw [Option.bind_some, replay, after] at replayed
      cases replayed
    | some next => exact ⟨middle, next, rfl, after⟩

variable [DecidableEq Note]

theorem count_of_step {next : Multiset Handle} (stepped : step held use = some next)
    (handle : Handle) :
    held.count handle + (if use = .acquire handle then 1 else 0) =
      next.count handle + if use = .release handle then 1 else 0 := by
  cases use with
  | acquire other =>
    cases stepped
    by_cases same : handle = other
    · subst same
      simp
    · rw [Multiset.count_cons_of_ne same]
      simp [Ne.symm same]
  | touch other =>
    simp only [step] at stepped
    split at stepped
    · cases stepped
      simp
    · cases stepped
  | release other =>
    simp only [step] at stepped
    split at stepped
    · rename_i member
      cases stepped
      by_cases same : handle = other
      · subst same
        have positive := Multiset.count_pos.mpr member
        rw [Multiset.count_erase_self]
        simp
        omega
      · rw [Multiset.count_erase_of_ne same]
        simp [Ne.symm same]
    · cases stepped
  | note note =>
    cases stepped
    simp

/-- Every acquired handle was released or is still held. -/
theorem count_of_replay (replayed : replay held log = some rest) (handle : Handle) :
    held.count handle + log.count (.acquire handle) =
      rest.count handle + log.count (.release handle) := by
  induction log generalizing held with
  | nil =>
    cases replayed
    rfl
  | cons use log ih =>
    rw [replay] at replayed
    cases stepped : step held use with
    | none =>
      rw [stepped] at replayed
      cases replayed
    | some next =>
      rw [stepped] at replayed
      have now := count_of_step stepped handle
      have later := ih replayed
      simp only [List.count_cons, beq_iff_eq]
      omega

/-- A handle is only touched while it was acquired more often than released. -/
theorem count_lt_of_touch (replayed : replay held (log ++ .touch handle :: more) = some rest) :
    log.count (.release handle) < held.count handle + log.count (.acquire handle) := by
  obtain ⟨middle, next, before, touched⟩ := replay_split replayed
  have counts := count_of_replay before handle
  have member : handle ∈ middle := by
    by_contra absent
    rw [step, if_neg absent] at touched
    cases touched
  have positive := Multiset.count_pos.mpr member
  omega

end GoMms.Ledger
