import Mathlib.Tactic

/-!
# Loops over an offset

A decoder that walks a buffer repeats a body while its offset lies below a limit. The
body either continues at a later offset or leaves the loop. `offsetLoop` is that loop, and
`offsetLoop_invariant` is its proof rule.
-/

namespace GoMms

universe u

/-- What one pass of the loop body decides. -/
inductive LoopStep (State : Type u) where
  | next (state : State) (offset : Nat)
  | stop (state : State) (offset : Nat)

variable {State : Type u}

/-- The state after the pass. -/
def LoopStep.state : LoopStep State → State
  | .next state _ => state
  | .stop state _ => state

/-- The offset after the pass. -/
def LoopStep.offset : LoopStep State → Nat
  | .next _ offset => offset
  | .stop _ offset => offset

/-- Repeat `body` while the offset is below `limit`. A pass that continues without moving the
offset forward would never end; it is reported as an error. -/
def offsetLoop (limit : Nat) (body : State → Nat → Except String (LoopStep State))
    (state : State) (offset : Nat) : Except String (State × Nat) :=
  if _below : offset < limit then
    match body state offset with
    | .error text => .error text
    | .ok (.stop state' offset') => .ok (state', offset')
    | .ok (.next state' offset') =>
      if _advance : offset < offset' then offsetLoop limit body state' offset'
      else .error "loop does not advance"
  else .ok (state, offset)
termination_by limit - offset

section Rules

variable {limit : Nat} {body : State → Nat → Except String (LoopStep State)}
  {state state' : State} {offset offset' : Nat}

theorem offsetLoop_done (past : limit ≤ offset) :
    offsetLoop limit body state offset = .ok (state, offset) := by
  rw [offsetLoop, dif_neg (Nat.not_lt.mpr past)]

theorem offsetLoop_next (below : offset < limit)
    (pass : body state offset = .ok (.next state' offset')) (advance : offset < offset') :
    offsetLoop limit body state offset = offsetLoop limit body state' offset' := by
  rw [offsetLoop, dif_pos below, pass]
  simp only [advance, ↓reduceDIte]

variable {final : State} {last : Nat}

/-- Induction over a successful run: the loop has ended, a pass leaves it, or a pass goes on from
a later offset. -/
@[elab_as_elim]
theorem offsetLoop_rec {motive : State → Nat → Prop} (ends : limit ≤ last → motive final last)
    (stops : ∀ state offset, offset < limit → body state offset = .ok (.stop final last) →
      motive state offset)
    (goes : ∀ state offset state' offset', offset < limit →
      body state offset = .ok (.next state' offset') → offset < offset' → motive state' offset' →
      motive state offset)
    (done : offsetLoop limit body state offset = .ok (final, last)) : motive state offset := by
  fun_induction offsetLoop limit body state offset with
  | case1 => cases done
  | case2 state offset below state' offset' pass =>
    cases done
    exact stops state offset below pass
  | case3 state offset below state' offset' pass advance ih =>
    exact goes state offset state' offset' below pass advance (ih done)
  | case4 => cases done
  | case5 state offset past =>
    cases done
    exact ends (Nat.not_lt.mp past)

/-- An invariant that every pass preserves holds where the loop ends. -/
theorem offsetLoop_invariant (invariant : State → Nat → Prop)
    (keeps : ∀ state offset step, invariant state offset → offset < limit →
      body state offset = .ok step → invariant step.state step.offset)
    (start : invariant state offset)
    (done : offsetLoop limit body state offset = .ok (final, last)) : invariant final last := by
  revert start
  refine offsetLoop_rec ?_ ?_ ?_ done
  · exact fun _ start => start
  · exact fun _ _ below pass start => keeps _ _ _ start below pass
  · exact fun _ _ _ _ below pass _ ih start => ih (keeps _ _ _ start below pass)

/-- Bodies that agree below the limit make the same loop. -/
theorem offsetLoop_congr {other : State → Nat → Except String (LoopStep State)}
    (agree : ∀ state offset, offset < limit → body state offset = other state offset)
    (state : State) (offset : Nat) :
    offsetLoop limit body state offset = offsetLoop limit other state offset := by
  induction remaining : limit - offset using Nat.strong_induction_on generalizing state offset with
  | h remaining ih =>
    rw [offsetLoop, offsetLoop.eq_def limit other]
    split
    · rename_i below
      rw [agree state offset below]
      split
      · rfl
      · rfl
      rename_i state' offset' _
      split
      · next advance => exact ih (limit - offset') (by omega) state' offset' rfl
      · rfl
    · rfl

theorem offsetLoop_stop (below : offset < limit)
    (pass : body state offset = .ok (.stop state' offset')) :
    offsetLoop limit body state offset = .ok (state', offset') := by
  rw [offsetLoop, dif_pos below, pass]

/-- A body that takes every step another one takes ends the loop where that one ends it. -/
theorem offsetLoop_mono (other : State → Nat → Except String (LoopStep State))
    (takes : ∀ state offset step, body state offset = .ok step → other state offset = .ok step)
    (done : offsetLoop limit body state offset = .ok (final, last)) :
    offsetLoop limit other state offset = .ok (final, last) := by
  refine offsetLoop_rec offsetLoop_done ?_ ?_ done
  · exact fun _ _ below pass => offsetLoop_stop below (takes _ _ _ pass)
  · intro _ _ _ _ below pass advance ih
    rw [offsetLoop_next below (takes _ _ _ pass) advance]
    exact ih

end Rules

section Items

variable {α Item : Type*} (encode : Item → List α) (step : State → Item → State)
  (body : List α → State → Nat → Except String (LoopStep State))
  (ready : State → List Item → Prop)

/-- A loop over items written one after another folds over them, if each pass consumes one, and
goes on behind them. A pass may rely on `ready`, which relates the state to the items still to
come. -/
theorem offsetLoop_items_before (tail : List α)
    (pass : ∀ front item rest state, ready state (item :: rest) →
      body (front ++ encode item ++ (rest.flatMap encode ++ tail)) state front.length =
        .ok (.next (step state item) (front.length + (encode item).length)) ∧
      encode item ≠ [] ∧ ready (step state item) rest)
    (items : List Item) (front : List α) (state : State) (start : ready state items) :
    offsetLoop (front ++ (items.flatMap encode ++ tail)).length
        (body (front ++ (items.flatMap encode ++ tail))) state front.length =
      offsetLoop (front ++ (items.flatMap encode ++ tail)).length
        (body (front ++ (items.flatMap encode ++ tail))) (items.foldl step state)
        (front ++ items.flatMap encode).length := by
  induction items generalizing front state with
  | nil => simp
  | cons item rest ih =>
    obtain ⟨read, filled, later⟩ := pass front item rest state start
    have positive : 0 < (encode item).length := List.length_pos_of_ne_nil filled
    have next := ih (front ++ encode item) (step state item) later
    have whole : front ++ ((item :: rest).flatMap encode ++ tail) =
        front ++ encode item ++ (rest.flatMap encode ++ tail) := by
      simp only [List.flatMap_cons, List.append_assoc]
    rw [whole, offsetLoop_next (by simp only [List.length_append]; omega) read (by omega),
      ← List.length_append, next, List.flatMap_cons, List.foldl_cons,
      ← List.append_assoc front (encode item) (rest.flatMap encode)]

theorem offsetLoop_items
    (pass : ∀ front item rest state, ready state (item :: rest) →
      body (front ++ encode item ++ rest.flatMap encode) state front.length =
        .ok (.next (step state item) (front.length + (encode item).length)) ∧
      encode item ≠ [] ∧ ready (step state item) rest)
    (items : List Item) (front : List α) (state : State) (start : ready state items) :
    offsetLoop (front ++ items.flatMap encode).length (body (front ++ items.flatMap encode)) state
        front.length =
      .ok (items.foldl step state, (front ++ items.flatMap encode).length) := by
  have loop := offsetLoop_items_before encode step body ready [] (by simpa using pass) items front
    state start
  rw [List.append_nil] at loop
  rw [loop, offsetLoop_done (le_refl _)]

end Items

/-- Each item is no longer than all of them. -/
theorem length_le_flatMap {α Item : Type*} {items : List Item} {item : Item} (member : item ∈ items)
    (encode : Item → List α) : (encode item).length ≤ (items.flatMap encode).length := by
  rw [List.flatMap_def]
  exact (List.sublist_flatten_of_mem (List.mem_map_of_mem member)).length_le

/-- A loop that collects one result from each item written in its data. A pass may rely on fewer
results being there than there are items. -/
theorem offsetLoop_collect {α Item Result : Type*} (encode : Item → List α)
    (result : Item → Result)
    (body : List α → List Result → Nat → Except String (LoopStep (List Result)))
    (items : List Item)
    (pass : ∀ front rest found item, item ∈ items → found.length < items.length →
      body (front ++ encode item ++ rest) found front.length =
        .ok (.next (found ++ [result item]) (front.length + (encode item).length)) ∧
      encode item ≠ []) :
    offsetLoop (items.flatMap encode).length (body (items.flatMap encode)) [] 0 =
      .ok (items.map result, (items.flatMap encode).length) := by
  have collected : ∀ (rest : List Item) (found : List Result),
      rest.foldl (fun found item => found ++ [result item]) found = found ++ rest.map result := by
    intro rest found
    rw [List.foldl_append_eq_append, ← List.flatMap_def, ← List.map_eq_flatMap]
  have loop := offsetLoop_items encode (fun found item => found ++ [result item]) body
    (fun found rest => found.length + rest.length = items.length ∧ ∀ item ∈ rest, item ∈ items)
    (fun front item rest found ⟨count, known⟩ => ?_) items [] [] ⟨by simp, fun _ => id⟩
  · simpa only [List.nil_append, List.length_nil, collected] using loop
  · rw [List.length_cons] at count
    obtain ⟨first, others⟩ := List.forall_mem_cons.mp known
    obtain ⟨read, filled⟩ := pass front (rest.flatMap encode) found item first (by omega)
    refine ⟨read, filled, ?_, others⟩
    rw [List.length_append, List.length_singleton]
    omega

end GoMms
