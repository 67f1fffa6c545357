import GoMms.Foundation.OffsetLoop

/-!
# Checked slice accesses

Index and slice expressions of Go panic outside the bounds of their operand, a loop whose offset
does not move never ends, and a recursion may exhaust its stack. Code whose accesses are written
with the operations below returns a fault where the program would panic or hang. A loop whose
passes cause no fault and move the offset is the plain loop (`checkedLoop_eq`). A walk over a list
of items causes a fault exactly when it reaches an item whose step does (`checkedWalk_faults_iff`).
-/

namespace GoMms

universe u

inductive Fault where
  | indexOutOfRange
  | sliceOutOfRange
  | noProgress
  | stackExhausted
  deriving DecidableEq, Repr

/-- Code behind an expression that causes no fault. -/
theorem ok_bind {α β : Type u} (value : α) (next : α → Except Fault β) :
    (Except.ok value >>= next) = next value :=
  rfl

section Accesses

variable {α : Type u}

/-- `data[index]`. -/
def index (data : List α) (index : Nat) : Except Fault α :=
  match data[index]? with
  | some value => .ok value
  | none => .error .indexOutOfRange

/-- `data[start:]`. -/
def sliceFrom (data : List α) (start : Nat) : Except Fault (List α) :=
  if start ≤ data.length then .ok (data.drop start) else .error .sliceOutOfRange

/-- `data[start:stop]`. -/
def slice (data : List α) (start stop : Nat) : Except Fault (List α) :=
  if start ≤ stop ∧ stop ≤ data.length then .ok ((data.drop start).take (stop - start))
  else .error .sliceOutOfRange

/-- `data[position]` with a signed position. -/
def indexInt (data : List α) (position : Int64) : Except Fault α :=
  if position < 0 then .error .indexOutOfRange else index data position.toInt.toNat

/-- `data[start:stop]` with signed bounds. -/
def sliceInt (data : List α) (start stop : Int64) : Except Fault (List α) :=
  if start < 0 ∨ stop < 0 then .error .sliceOutOfRange
  else slice data start.toInt.toNat stop.toInt.toNat

variable {data : List α}

theorem index_eq {position : Nat} {value : α} (found : data[position]? = some value) :
    index data position = .ok value := by
  rw [index, found]

theorem index_eq_getD (default : α) {position : Nat} (inside : position < data.length) :
    index data position = .ok (data.getD position default) := by
  rw [List.getD_eq_getElem?_getD, index, List.getElem?_eq_getElem inside]
  rfl

theorem sliceFrom_eq {start : Nat} (inside : start ≤ data.length) :
    sliceFrom data start = .ok (data.drop start) :=
  if_pos inside

theorem slice_eq {start stop : Nat} (ordered : start ≤ stop) (inside : stop ≤ data.length) :
    slice data start stop = .ok ((data.drop start).take (stop - start)) :=
  if_pos ⟨ordered, inside⟩

/-- A slice expression with signed bounds whose upper one lies inside the data. -/
theorem sliceInt_of_le {start stop : Int64} (inside : stop.toInt ≤ data.length) :
    sliceInt data start stop =
      if 0 ≤ start.toInt ∧ start.toInt ≤ stop.toInt then
        .ok ((data.drop start.toInt.toNat).take (stop.toInt.toNat - start.toInt.toNat))
      else .error .sliceOutOfRange := by
  have zero : (0 : Int64).toInt = 0 := rfl
  simp only [sliceInt, slice, Int64.lt_iff_toInt_lt, zero]
  split_ifs <;> first | rfl | omega

end Accesses

variable {State : Type u}

/-- The loop of `offsetLoop` with a body that may cause a fault. -/
def checkedLoop (limit : Nat)
    (body : State → Nat → Except Fault (Except String (LoopStep State)))
    (state : State) (offset : Nat) : Except Fault (Except String (State × Nat)) :=
  if _below : offset < limit then
    match body state offset with
    | .error fault => .error fault
    | .ok (.error text) => .ok (.error text)
    | .ok (.ok (.stop state' offset')) => .ok (.ok (state', offset'))
    | .ok (.ok (.next state' offset')) =>
      if _advance : offset < offset' then checkedLoop limit body state' offset'
      else .error .noProgress
  else .ok (.ok (state, offset))
termination_by limit - offset

/-- Without faults, and with passes that move the offset, the loop is the plain one. -/
theorem checkedLoop_eq {limit : Nat}
    {body : State → Nat → Except Fault (Except String (LoopStep State))}
    {plain : State → Nat → Except String (LoopStep State)}
    (safe : ∀ state offset, offset < limit → body state offset = .ok (plain state offset))
    (advances : ∀ state offset state' offset', offset < limit →
      plain state offset = .ok (.next state' offset') → offset < offset')
    (state : State) (offset : Nat) :
    checkedLoop limit body state offset = .ok (offsetLoop limit plain state offset) := by
  fun_induction offsetLoop limit plain state offset with
  | case1 state offset below text pass =>
    rw [checkedLoop, dif_pos below, safe state offset below, pass]
  | case2 state offset below state' offset' pass =>
    rw [checkedLoop, dif_pos below, safe state offset below, pass]
  | case3 state offset below state' offset' pass advance ih =>
    rw [checkedLoop, dif_pos below, safe state offset below, pass]
    exact (dif_pos advance).trans ih
  | case4 state offset below state' offset' pass stuck =>
    exact absurd (advances state offset state' offset' below pass) stuck
  | case5 state offset past => rw [checkedLoop, dif_neg past]

section Walks

variable {Item Outcome : Type u}

/-- Go from item to item, counting from `position`: a step moves on to another state, leaves the
walk with an outcome, or causes a fault. -/
def checkedWalk (step : Nat → State → Item → Except Fault (Except Outcome State)) :
    (position : Nat) → State → List Item → Except Fault (Except Outcome State)
  | _, state, [] => .ok (.ok state)
  | position, state, item :: items =>
    match step position state item with
    | .error fault => .error fault
    | .ok (.error outcome) => .ok (.error outcome)
    | .ok (.ok next) => checkedWalk step (position + 1) next items

variable {step : Nat → State → Item → Except Fault (Except Outcome State)}

/-- A walk causes a fault exactly when it reaches an item whose step does. -/
theorem checkedWalk_faults_iff (position : Nat) (state : State) (items : List Item) :
    (∃ fault, checkedWalk step position state items = .error fault) ↔
      ∃ before item after reached fault, items = before ++ item :: after ∧
        checkedWalk step position state before = .ok (.ok reached) ∧
        step (position + before.length) reached item = .error fault := by
  induction items generalizing position state with
  | nil => simp [checkedWalk]
  | cons item items ih =>
    cases first : step position state item with
    | error fault =>
      simp only [checkedWalk, first, Except.error.injEq, exists_eq', true_iff]
      exact ⟨[], item, items, state, fault, rfl, rfl, first⟩
    | ok passed =>
      cases passed with
      | error outcome =>
        simp only [checkedWalk, first, reduceCtorEq, exists_false, false_iff]
        rintro ⟨before, other, after, reached, fault, split, walked, stuck⟩
        cases before with
        | nil =>
          cases split
          cases walked
          cases first.symm.trans stuck
        | cons head before =>
          cases split
          simp only [checkedWalk, first] at walked
          cases walked
      | ok next =>
        simp only [checkedWalk, first, ih]
        constructor
        · rintro ⟨before, other, after, reached, fault, rfl, walked, stuck⟩
          refine ⟨item :: before, other, after, reached, fault, rfl, ?_, ?_⟩
          · simpa only [checkedWalk, first] using walked
          · rwa [List.length_cons, Nat.add_comm before.length, ← Nat.add_assoc]
        · rintro ⟨before, other, after, reached, fault, split, walked, stuck⟩
          cases before with
          | nil =>
            cases split
            cases walked
            cases first.symm.trans stuck
          | cons head before =>
            cases split
            simp only [checkedWalk, first] at walked
            refine ⟨before, other, after, reached, fault, rfl, walked, ?_⟩
            rwa [List.length_cons, Nat.add_comm before.length, ← Nat.add_assoc] at stuck

end Walks

end GoMms
