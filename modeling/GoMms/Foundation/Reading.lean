import Mathlib.Tactic

/-!
# Programs that read shared memory

A program that reads cells one at a time and computes in between. A scheduler may let others run
between two reads; a program that is let through in one piece is evaluated. As long as the cells
it can still read keep their values, both come to the same result.
-/

namespace GoMms

universe u v w

/-- The next cell to read and what happens with its value, or the result. -/
inductive Reading (Value : Type u) (Result : Type v) where
  | done (result : Result)
  | read (index : Nat) (next : Value → Reading Value Result)

namespace Reading

variable {Value : Type u} {Result : Type v} {Next : Type w}

/-- Run a program and go on with its result. -/
def bind : Reading Value Result → (Result → Reading Value Next) → Reading Value Next
  | done result, rest => rest result
  | read index next, rest => read index fun value => (next value).bind rest

/-- Run a program in one piece. -/
def eval (memory : Nat → Value) : Reading Value Result → Result
  | done result => result
  | read index next => (next (memory index)).eval memory

/-- Every cell the program can read lies below the bound. -/
def Within (bound : Nat) : Reading Value Result → Prop
  | done _ => True
  | read index next => index < bound ∧ ∀ value, (next value).Within bound

/-- Read `count` cells in order. -/
def readFrom : (start count : Nat) → Reading Value (List Value)
  | _, 0 => done []
  | start, count + 1 => read start fun value =>
    (readFrom (start + 1) count).bind fun values => done (value :: values)

theorem eval_bind (memory : Nat → Value) (program : Reading Value Result)
    (rest : Result → Reading Value Next) :
    (program.bind rest).eval memory = (rest (program.eval memory)).eval memory := by
  induction program with
  | done result => rfl
  | read index next ih => exact ih (memory index)

variable {bound : Nat}

theorem Within.bind {program : Reading Value Result} {rest : Result → Reading Value Next}
    (within : program.Within bound) (later : ∀ result, (rest result).Within bound) :
    (program.bind rest).Within bound := by
  induction program with
  | done result => exact later result
  | read index next ih => exact ⟨within.1, fun value => ih value (within.2 value)⟩

/-- Only the cells below the bound matter. -/
theorem Within.eval_congr {program : Reading Value Result} (within : program.Within bound)
    {memory other : Nat → Value} (same : ∀ index < bound, other index = memory index) :
    program.eval other = program.eval memory := by
  induction program with
  | done result => rfl
  | read index next ih =>
    rw [eval, eval, same index within.1]
    exact ih (memory index) (within.2 _)

theorem eval_readFrom (memory : Nat → Value) (start count : Nat) :
    (readFrom start count).eval memory = (List.range' start count).map memory := by
  induction count generalizing start with
  | zero => rfl
  | succ count ih =>
    rw [readFrom, eval, eval_bind, ih, List.range'_succ]
    rfl

theorem within_readFrom {start count : Nat} (inside : start + count ≤ bound) :
    (readFrom start count : Reading Value (List Value)).Within bound := by
  induction count generalizing start with
  | zero => trivial
  | succ count ih =>
    exact ⟨by omega, fun value => (ih (by omega)).bind fun values => trivial⟩

end Reading
end GoMms
