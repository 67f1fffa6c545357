import GoMms.Mms.Selection

/-!
# Ranges that pass the check and panic

`Value.Get` and the server's reader of alternate access test a range with `start < 0` and
`start+count > len`, in machine arithmetic, before they take the slice. A negative count, and a sum
that wraps around, pass this test. Each program panics on exactly those chains that lead to an
array and select such a range from it; on all other chains it ends, whatever the value.
-/

namespace GoMms.Mms

open Pdu Server

/-- The range passes the check of the source, although its end lies before its start. -/
def RangePanics (start count : Int64) (length : Nat) : Prop :=
  0 ≤ start.toInt ∧
    (count.toInt < 0 ∧ start.toInt + count.toInt ≤ length ∨ 2 ^ 63 ≤ start.toInt + count.toInt)

instance (start count : Int64) (length : Nat) : Decidable (RangePanics start count length) := by
  unfold RangePanics
  infer_instance

section Ranges

variable {start count : Int64} {length : Nat}

/-- The sum wraps around exactly when it does not fit. -/
theorem toInt_add_of_nonneg (nonneg : 0 ≤ start.toInt) :
    (start + count).toInt =
      if 2 ^ 63 ≤ start.toInt + count.toInt then start.toInt + count.toInt - 2 ^ 64
      else start.toInt + count.toInt := by
  have startHigh := start.toInt_lt
  have countLow := count.le_toInt
  have countHigh := count.toInt_lt
  rw [Int64.toInt_add, Int.bmod_def]
  split_ifs <;> omega

/-- What the check of the source lets through. -/
theorem outsideRange_eq_false_iff :
    outsideRange start count length = false ↔ 0 ≤ start.toInt ∧ (start + count).toInt ≤ length := by
  rw [outsideRange, Bool.or_eq_false_iff, decide_eq_false_iff_not, decide_eq_false_iff_not,
    Int64.lt_iff_toInt_lt, gt_iff_lt, not_lt, not_lt]
  rfl

theorem rangePanics_iff :
    RangePanics start count length ↔
      outsideRange start count length = false ∧ (start + count).toInt < start.toInt := by
  have startHigh := start.toInt_lt
  have countHigh := count.toInt_lt
  rw [RangePanics, outsideRange_eq_false_iff, and_assoc]
  refine and_congr_right fun nonneg => ?_
  rw [toInt_add_of_nonneg nonneg]
  split_ifs <;> omega

/-- The ranges the programs accept: inside the array, without wrapping around. -/
theorem inside_iff :
    (outsideRange start count length = false ∧ ¬RangePanics start count length) ↔
      0 ≤ start.toInt ∧ 0 ≤ count.toInt ∧ start.toInt + count.toInt ≤ length ∧
        start.toInt + count.toInt < 2 ^ 63 := by
  have startHigh := start.toInt_lt
  have countHigh := count.toInt_lt
  rw [rangePanics_iff, outsideRange_eq_false_iff, and_assoc]
  refine and_congr_right fun nonneg => ?_
  rw [toInt_add_of_nonneg nonneg]
  split_ifs <;> omega

end Ranges

/-! ## `Get` -/

/-- The selector is a range, for `Get`: the other fields take precedence. -/
def SelectsRange (sel : AccessSelector) (range : IndexRange) : Prop :=
  sel.component = [] ∧ sel.index = none ∧ sel.indexRange = some range

section Get

variable {quote : Octets → String}

theorem getRange_faults_iff (i : Nat) (elems : List Value) (start count : Int64) :
    (∃ fault, getRange i elems start count = .error fault) ↔
      RangePanics start count elems.length := by
  have zero : (0 : Int64).toInt = 0 := rfl
  rw [rangePanics_iff]
  unfold getRange
  by_cases outside : outsideRange start count elems.length = true
  · simp [outside]
  · rw [Bool.not_eq_true] at outside
    obtain ⟨low, high⟩ := outsideRange_eq_false_iff.mp outside
    have sum := @toInt_add_of_nonneg start count low
    have startHigh := start.toInt_lt
    have countHigh := count.toInt_lt
    simp only [outside, Bool.false_eq_true, ↓reduceIte, true_and]
    by_cases negative : count < 0
    · rw [if_pos negative]
      rw [Int64.lt_iff_toInt_lt, zero] at negative
      refine iff_of_true ⟨_, rfl⟩ ?_
      split_ifs at sum <;> omega
    · rw [if_neg negative]
      rw [Int64.lt_iff_toInt_lt, zero] at negative
      by_cases wraps : (start + count).toInt < start.toInt
      · have stuck : slice elems start.toInt.toNat (start + count).toInt.toNat =
            .error .sliceOutOfRange := if_neg (by split_ifs at sum <;> omega)
        rw [stuck]
        exact iff_of_true ⟨_, rfl⟩ wraps
      · rw [slice_eq (by omega) (by omega), ok_bind]
        exact iff_of_false (by rintro ⟨_, ⟨⟩⟩) wraps

/-- One selector: only a range of an array can panic. -/
theorem getSelector_faults_iff (cur : Value) (i : Nat) (sel : AccessSelector) :
    (∃ fault, cur.getSelector quote i sel = .error fault) ↔
      ∃ elems range, cur = .array elems ∧ SelectsRange sel range ∧
        RangePanics range.start range.count elems.length := by
  obtain ⟨component, index, indexRange⟩ := sel
  simp only [SelectsRange]
  unfold Value.getSelector
  dsimp only
  by_cases untyped : cur.type = none
  · rw [if_pos untyped]
    refine iff_of_false (by rintro ⟨_, ⟨⟩⟩) ?_
    rintro ⟨elems, range, rfl, -⟩
    cases untyped
  · rw [if_neg untyped]
    by_cases named : component ≠ []
    · rw [if_pos named]
      refine iff_of_false ?_ (fun ⟨_, _, _, ⟨unnamed, _⟩, _⟩ => named unnamed)
      split_ifs <;> rintro ⟨_, ⟨⟩⟩
    · rw [if_neg named]
      rw [not_not] at named
      cases index with
      | some index =>
        refine iff_of_false ?_ (by rintro ⟨_, _, _, ⟨_, ⟨⟩, _⟩, _⟩)
        cases cur <;> rintro ⟨_, ⟨⟩⟩
      | none =>
        cases indexRange with
        | none =>
          refine iff_of_false (by rintro ⟨_, ⟨⟩⟩) (by rintro ⟨_, _, _, ⟨_, _, ⟨⟩⟩, _⟩)
        | some range =>
          cases cur with
          | array elems =>
            simp only [getRange_faults_iff, Value.array.injEq, named, Option.some.injEq, true_and]
            exact ⟨fun panics => ⟨elems, range, rfl, rfl, panics⟩,
              by rintro ⟨_, _, rfl, rfl, panics⟩; exact panics⟩
          | _ => exact iff_of_false (by rintro ⟨_, ⟨⟩⟩) (by rintro ⟨_, _, ⟨⟩, _⟩)

/-- The loop of `Get` is a walk along the selectors. -/
theorem getFrom_eq_checkedWalk (cur : Value) (i : Nat) (selectors : List AccessSelector) :
    cur.getFrom quote i selectors =
      checkedWalk (fun i cur sel => Value.getSelector quote cur i sel) i cur selectors := by
  induction selectors generalizing cur i with
  | nil => rfl
  | cons sel selectors ih =>
    simp only [Value.getFrom, checkedWalk]
    cases cur.getSelector quote i sel with
    | error fault => rfl
    | ok result =>
      cases result with
      | error text => rfl
      | ok next => exact ih next (i + 1)

/-- **Where `Get` returns.** For every value, nil children included, and every chain of selectors
with any integers, `Get` returns a value or an error exactly when no selector on its way takes from
an array a range with a negative count, or with a sum that wraps around, that passes the check. -/
theorem get_returns_iff (quote : Octets → String) (v : Value) (selectors : List AccessSelector) :
    (∃ result, v.get quote selectors = .ok result) ↔
      ∀ before sel after elems range, selectors = before ++ sel :: after →
        v.get quote before = .ok (.ok (.array elems)) → SelectsRange sel range →
        ¬RangePanics range.start range.count elems.length := by
  have faults : (∃ fault, v.get quote selectors = .error fault) ↔
      ∃ before sel after elems range, selectors = before ++ sel :: after ∧
        v.get quote before = .ok (.ok (.array elems)) ∧ SelectsRange sel range ∧
        RangePanics range.start range.count elems.length := by
    simp only [Value.get, getFrom_eq_checkedWalk, checkedWalk_faults_iff]
    constructor
    · rintro ⟨before, sel, after, reached, fault, split, walked, stuck⟩
      obtain ⟨elems, range, rfl, ranged, panics⟩ :=
        (getSelector_faults_iff reached _ sel).mp ⟨fault, stuck⟩
      exact ⟨before, sel, after, elems, range, split, walked, ranged, panics⟩
    · rintro ⟨before, sel, after, elems, range, split, walked, ranged, panics⟩
      obtain ⟨fault, stuck⟩ := (@getSelector_faults_iff quote (.array elems) (0 + before.length)
        sel).mpr ⟨elems, range, rfl, ranged, panics⟩
      exact ⟨before, sel, after, .array elems, fault, split, walked, stuck⟩
  constructor
  · rintro ⟨result, returned⟩ before sel after elems range split walked ranged panics
    obtain ⟨fault, stuck⟩ := faults.mpr ⟨before, sel, after, elems, range, split, walked, ranged,
      panics⟩
    cases returned.symm.trans stuck
  · intro sound
    cases got : v.get quote selectors with
    | ok result => exact ⟨result, rfl⟩
    | error fault =>
      obtain ⟨before, sel, after, elems, range, split, walked, ranged, panics⟩ :=
        faults.mp ⟨fault, got⟩
      exact (sound before sel after elems range split walked ranged panics).elim

/-- A count that is too large, without wrapping around, is an error and no panic. -/
theorem get_returns_too_long :
    ∃ result, (Value.array [.nil, .integer 7]).get (fun _ => "")
      [⟨[], none, some ⟨1, 9223372036854775806⟩⟩] = .ok result := by
  refine (get_returns_iff _ _ _).mpr fun before sel after elems range split walked ranged => ?_
  cases before with
  | nil =>
    cases split
    cases walked
    obtain ⟨-, -, ranged⟩ := ranged
    cases ranged
    decide
  | cons head before =>
    cases before <;> cases split

/-- A negative count, with the end inside the array or before it, and a sum that wraps around. -/
theorem get_panics :
    (Value.array [.integer 1, .integer 2]).get (fun _ => "") [⟨[], none, some ⟨1, -1⟩⟩] =
        .error .sliceOutOfRange ∧
      (Value.array []).get (fun _ => "") [⟨[], none, some ⟨0, -1⟩⟩] = .error .sliceOutOfRange ∧
      (Value.array [.integer 1, .integer 2]).get (fun _ => "")
        [⟨[], none, some ⟨1, 9223372036854775807⟩⟩] = .error .sliceOutOfRange :=
  ⟨rfl, rfl, rfl⟩

end Get

/-! ## The reader of alternate access

The reader with its index and slice expressions written out, behind the tests that precede them. -/

/-- `ts.Elements[idx].Type` behind `idx < len(ts.Elements)`. -/
def structureElementTypeChecked (ts : Option TypeSpec) (idx : Nat) :
    Except Fault (Option TypeSpec) :=
  match ts with
  | none => .ok none
  | some spec =>
    if idx < spec.elements.length then do
      let elem ← index spec.elements idx
      return some elem.2
    else .ok none

def selectComponentChecked (val : Value) (ts : Option TypeSpec) (name : Octets) :
    Except Fault (Value × Option TypeSpec) :=
  if val.type ≠ some .struct then .ok (.nil, none)
  else
    match resolveComponentIndex ts name with
    | none => .ok (.nil, none)
    | some idx =>
      if idx ≥ val.elements.length then .ok (.nil, none)
      else do
        let childTs ← structureElementTypeChecked ts idx
        let child ← index val.elements idx
        return (child, childTs)

def selectIndexChecked (val : Value) (ts : Option TypeSpec) (position : Int64) :
    Except Fault (Value × Option TypeSpec) :=
  match val with
  | .array elems =>
    if position < 0 ∨ position.toInt ≥ elems.length then .ok (.nil, none)
    else do
      let child ← indexInt elems position
      return (child, ts.bind TypeSpec.element)
  | .struct elems =>
    if position < 0 ∨ position.toInt ≥ elems.length then .ok (.nil, none)
    else do
      let childTs ← structureElementTypeChecked ts position.toInt.toNat
      let child ← indexInt elems position
      return (child, childTs)
  | _ => .ok (.nil, none)

def selectRangeChecked (val : Value) (start count : Int64) : Except Fault Value :=
  match val with
  | .array elems =>
    if outsideRange start count elems.length then .ok .nil
    else do
      let sub ← sliceInt elems start (start + count)
      return .array sub
  | _ => .ok .nil

def applySingleSelectorChecked (val : Value) (ts : Option TypeSpec) (sel : AccessSelectorWire) :
    Except Fault (Value × Option TypeSpec) :=
  if sel.component ≠ [] then selectComponentChecked val ts sel.component
  else if sel.hasIndex then selectIndexChecked val ts sel.index
  else
    match sel.indexRange with
    | some range => do
        let sub ← selectRangeChecked val range.lowIndex range.numberOfElements
        return (sub, none)
    | none => .ok (.nil, none)

/-- The body of the loop of `applyAlternateAccessRead`: a nil value leaves it. -/
def readSelector (_ : Nat) (reached : Value × Option TypeSpec) (sel : AccessSelectorWire) :
    Except Fault (Except Value (Value × Option TypeSpec)) :=
  match reached with
  | (.nil, _) => .ok (.error .nil)
  | (val, ts) => do
      let next ← applySingleSelectorChecked val ts sel
      return .ok next

def applyAlternateAccessReadChecked (val : Value) (ts : Option TypeSpec)
    (selectors : List AccessSelectorWire) : Except Fault Value :=
  match checkedWalk readSelector 0 (val, ts) selectors with
  | .error fault => .error fault
  | .ok (.error left) => .ok left
  | .ok (.ok reached) => .ok reached.1

/-- The selector is a range, for the reader. -/
def WireSelectsRange (sel : AccessSelectorWire) (range : IndexRangeWire) : Prop :=
  sel.component = [] ∧ sel.hasIndex = false ∧ sel.indexRange = some range

/-- The chain leads to an array and selects a range from it that passes the check and panics. -/
def PathPanics (val : Value) (ts : Option TypeSpec) (selectors : List AccessSelectorWire) : Prop :=
  ∃ before sel after elems range, selectors = before ++ sel :: after ∧
    applyAlternateAccessRead val ts before = .array elems ∧ WireSelectsRange sel range ∧
    RangePanics range.lowIndex range.numberOfElements elems.length

section Read

variable {val : Value} {ts : Option TypeSpec} {sel : AccessSelectorWire}

theorem structureElementTypeChecked_eq (ts : Option TypeSpec) (idx : Nat) :
    structureElementTypeChecked ts idx = .ok (structureElementType ts idx) := by
  cases ts with
  | none => rfl
  | some spec =>
    simp only [structureElementTypeChecked, structureElementType]
    split_ifs with inside
    · rw [index_eq (List.getElem?_eq_getElem inside), ok_bind, List.getElem?_eq_getElem inside]
      rfl
    · rw [List.getElem?_eq_none (by omega)]
      rfl

theorem selectComponentChecked_eq (val : Value) (ts : Option TypeSpec) (name : Octets) :
    selectComponentChecked val ts name = .ok (selectComponent val ts name) := by
  unfold selectComponentChecked selectComponent
  by_cases structured : val.type ≠ some .struct
  · rw [if_pos structured, if_pos structured]
  · rw [if_neg structured, if_neg structured]
    cases resolveComponentIndex ts name with
    | none => rfl
    | some idx =>
      dsimp only
      by_cases inside : idx < val.elements.length
      · rw [if_neg (by omega), structureElementTypeChecked_eq, ok_bind,
          index_eq (List.getElem?_eq_getElem inside), ok_bind, List.getElem?_eq_getElem inside]
        rfl
      · rw [if_pos (by omega), List.getElem?_eq_none (by omega)]

variable {position : Int64}

/-- `elems[index]` behind its test is the element that the total reader looks up. -/
theorem indexInt_eq {elems : List Value}
    (inside : ¬(position < 0 ∨ position.toInt ≥ elems.length)) :
    ¬position < 0 ∧ ∃ child, elems[position.toInt.toNat]? = some child ∧
      indexInt elems position = .ok child := by
  have zero : (0 : Int64).toInt = 0 := rfl
  rw [not_or, Int64.lt_iff_toInt_lt, zero] at inside
  have nonneg : ¬position < 0 := by
    rw [Int64.lt_iff_toInt_lt, zero]
    exact inside.1
  have found := List.getElem?_eq_getElem (show position.toInt.toNat < elems.length by omega)
  refine ⟨nonneg, _, found, ?_⟩
  rw [indexInt, if_neg nonneg, index_eq found]

theorem getElem?_of_outside {elems : List Value}
    (outside : position < 0 ∨ position.toInt ≥ elems.length) (nonneg : ¬position < 0) :
    elems[position.toInt.toNat]? = none := by
  have beyond := outside.resolve_left nonneg
  exact List.getElem?_eq_none (by omega)

theorem selectIndexChecked_eq (val : Value) (ts : Option TypeSpec) (position : Int64) :
    selectIndexChecked val ts position = .ok (selectIndex val ts position) := by
  cases val with
  | array elems | struct elems =>
    simp only [selectIndexChecked, selectIndex]
    by_cases outside : position < 0 ∨ position.toInt ≥ elems.length
    · rw [if_pos outside]
      split_ifs with negative
      · rfl
      · rw [getElem?_of_outside outside negative]
    · obtain ⟨nonneg, child, found, taken⟩ := indexInt_eq outside
      simp only [if_neg outside, if_neg nonneg, found, taken, structureElementTypeChecked_eq,
        ok_bind]
      rfl
  | _ => rfl

theorem selectRangeChecked_cases (elems : List Value) (start count : Int64) :
    RangePanics start count elems.length ∧
        selectRangeChecked (.array elems) start count = .error .sliceOutOfRange ∨
      ¬RangePanics start count elems.length ∧
        selectRangeChecked (.array elems) start count =
          .ok (selectRange (.array elems) start count) := by
  simp only [selectRangeChecked, selectRange]
  by_cases outside : outsideRange start count elems.length = true
  · rw [if_pos outside, if_pos outside]
    refine .inr ⟨fun panics => ?_, rfl⟩
    rw [(rangePanics_iff.mp panics).1] at outside
    cases outside
  · rw [if_neg outside, if_neg outside]
    rw [Bool.not_eq_true] at outside
    by_cases panics : RangePanics start count elems.length
    · obtain ⟨-, backwards⟩ := rangePanics_iff.mp panics
      rw [sliceInt_of_le (outsideRange_eq_false_iff.mp outside).2, if_neg (by omega)]
      exact .inl ⟨panics, rfl⟩
    · obtain ⟨low, counted, inside, fits⟩ := inside_iff.mp ⟨outside, panics⟩
      have sum := @toInt_add_of_nonneg start count low
      rw [if_neg (by omega)] at sum
      have size : (start + count).toInt.toNat - start.toInt.toNat = count.toInt.toNat := by omega
      rw [sliceInt_of_le (by omega), if_pos (by omega), ok_bind, size]
      exact .inr ⟨panics, rfl⟩

/-- One selector: a range of an array may panic, and everything else is what the total reader
does. -/
theorem applySingleSelectorChecked_cases (val : Value) (ts : Option TypeSpec)
    (sel : AccessSelectorWire) :
    (∃ elems range, val = .array elems ∧ WireSelectsRange sel range ∧
        RangePanics range.lowIndex range.numberOfElements elems.length ∧
        applySingleSelectorChecked val ts sel = .error .sliceOutOfRange) ∨
      (∀ elems range, val = .array elems → WireSelectsRange sel range →
        ¬RangePanics range.lowIndex range.numberOfElements elems.length) ∧
        applySingleSelectorChecked val ts sel = .ok (applySingleSelector val ts sel) := by
  unfold applySingleSelectorChecked applySingleSelector WireSelectsRange
  by_cases named : sel.component ≠ []
  · rw [if_pos named, if_pos named, selectComponentChecked_eq]
    exact .inr ⟨fun _ _ _ ranged => (named ranged.1).elim, rfl⟩
  · rw [if_neg named, if_neg named]
    cases indexed : sel.hasIndex with
    | true =>
      rw [if_pos rfl, if_pos rfl, selectIndexChecked_eq]
      exact .inr ⟨by rintro _ _ _ ⟨_, ⟨⟩, _⟩, rfl⟩
    | false =>
      simp only [Bool.false_eq_true, ↓reduceIte]
      rw [not_not] at named
      cases sel.indexRange with
      | none => exact .inr ⟨by rintro _ _ _ ⟨_, _, ⟨⟩⟩, rfl⟩
      | some range =>
        cases val with
        | array elems =>
          dsimp only
          rcases selectRangeChecked_cases elems range.lowIndex range.numberOfElements with
            ⟨panics, stuck⟩ | ⟨sound, taken⟩
          · rw [stuck]
            exact .inl ⟨elems, range, rfl, ⟨named, trivial, rfl⟩, panics, rfl⟩
          · rw [taken]
            refine .inr ⟨?_, rfl⟩
            rintro _ _ ⟨⟩ ⟨_, _, ⟨⟩⟩
            exact sound
        | _ => exact .inr ⟨by rintro _ _ ⟨⟩, rfl⟩

theorem pathPanics_cons (present : val ≠ .nil) (selectors : List AccessSelectorWire) :
    PathPanics val ts (sel :: selectors) ↔
      (∃ elems range, val = .array elems ∧ WireSelectsRange sel range ∧
        RangePanics range.lowIndex range.numberOfElements elems.length) ∨
      PathPanics (applySingleSelector val ts sel).1
        (applySingleSelector val ts sel).2 selectors := by
  constructor
  · rintro ⟨before, other, after, elems, range, split, reached, ranged, panics⟩
    cases before with
    | nil =>
      cases split
      exact .inl ⟨elems, range, by simpa only [applyAlternateAccessRead] using reached, ranged,
        panics⟩
    | cons head before =>
      cases split
      rw [applyAlternateAccessRead_cons present] at reached
      exact .inr ⟨before, other, after, elems, range, rfl, reached, ranged, panics⟩
  · rintro (⟨elems, range, rfl, ranged, panics⟩ |
      ⟨before, other, after, elems, range, rfl, reached, ranged, panics⟩)
    · exact ⟨[], sel, selectors, elems, range, rfl, by simp only [applyAlternateAccessRead], ranged,
        panics⟩
    · refine ⟨sel :: before, other, after, elems, range, rfl, ?_, ranged, panics⟩
      rw [applyAlternateAccessRead_cons present, reached]

theorem not_pathPanics_nil (selectors : List AccessSelectorWire) :
    ¬PathPanics .nil ts selectors := by
  rintro ⟨before, -, -, elems, -, -, reached, -⟩
  rw [read_nil] at reached
  cases reached

/-- The walk of the reader panics on the chains that do so, and elsewhere it is the total reader. -/
private theorem readWalk_cases (position : Nat) (val : Value) (ts : Option TypeSpec)
    (selectors : List AccessSelectorWire) :
    PathPanics val ts selectors ∧
        checkedWalk readSelector position (val, ts) selectors = .error .sliceOutOfRange ∨
      ¬PathPanics val ts selectors ∧
        (checkedWalk readSelector position (val, ts) selectors = .ok (.error .nil) ∧
            applyAlternateAccessRead val ts selectors = .nil ∨
          ∃ last, checkedWalk readSelector position (val, ts) selectors =
            .ok (.ok (applyAlternateAccessRead val ts selectors, last))) := by
  induction selectors generalizing position val ts with
  | nil =>
    refine .inr ⟨?_, .inr ⟨ts, by simp only [checkedWalk, applyAlternateAccessRead]⟩⟩
    rintro ⟨before, _, _, _, _, split, -⟩
    cases before <;> cases split
  | cons sel selectors ih =>
    by_cases absent : val = .nil
    · subst absent
      exact .inr ⟨not_pathPanics_nil _, .inl ⟨rfl, read_nil ts _⟩⟩
    · have pass : readSelector position (val, ts) sel =
          (do let next ← applySingleSelectorChecked val ts sel; return .ok next) := by
        cases val <;> first | rfl | exact (absent rfl).elim
      rw [pathPanics_cons absent, applyAlternateAccessRead_cons absent]
      simp only [checkedWalk, pass]
      rcases applySingleSelectorChecked_cases val ts sel with
        ⟨elems, range, array, ranged, panics, stuck⟩ | ⟨sound, taken⟩
      · rw [stuck]
        exact .inl ⟨.inl ⟨elems, range, array, ranged, panics⟩, rfl⟩
      · have here : ¬∃ elems range, val = .array elems ∧ WireSelectsRange sel range ∧
            RangePanics range.lowIndex range.numberOfElements elems.length := by
          rintro ⟨elems, range, array, ranged, panics⟩
          exact sound elems range array ranged panics
        rw [taken, ok_bind]
        simp only [here, false_or]
        exact ih (position + 1) (applySingleSelector val ts sel).1
          (applySingleSelector val ts sel).2

/-- The reader panics on the chains that do so, and elsewhere it is the total reader. -/
theorem applyAlternateAccessReadChecked_cases (val : Value) (ts : Option TypeSpec)
    (selectors : List AccessSelectorWire) :
    PathPanics val ts selectors ∧
        applyAlternateAccessReadChecked val ts selectors = .error .sliceOutOfRange ∨
      ¬PathPanics val ts selectors ∧ applyAlternateAccessReadChecked val ts selectors =
        .ok (applyAlternateAccessRead val ts selectors) := by
  unfold applyAlternateAccessReadChecked
  rcases readWalk_cases 0 val ts selectors with ⟨panics, stuck⟩ | ⟨sound, ⟨left, empty⟩ | ⟨_, ends⟩⟩
  · rw [stuck]
    exact .inl ⟨panics, rfl⟩
  · rw [left, empty]
    exact .inr ⟨sound, rfl⟩
  · rw [ends]
    exact .inr ⟨sound, rfl⟩

/-! ## Selectors that do not fit -/

/-- The selector names a part of the value: a component of the type, an element, or a range that
lies inside the array. -/
def SelectorFits (val : Value) (ts : Option TypeSpec) (sel : AccessSelectorWire) : Prop :=
  if sel.component ≠ [] then
    val.type = some .struct ∧ ∃ idx, resolveComponentIndex ts sel.component = some idx ∧
      idx < val.elements.length
  else if sel.hasIndex then
    val.IsComposite ∧ 0 ≤ sel.index.toInt ∧ sel.index.toInt < val.elements.length
  else
    ∃ range, sel.indexRange = some range ∧ val.type = some .array ∧ 0 ≤ range.lowIndex.toInt ∧
      0 ≤ range.numberOfElements.toInt ∧
      range.lowIndex.toInt + range.numberOfElements.toInt ≤ val.elements.length

/-- Every selector of the chain fits the value it is applied to. -/
def ChainFits : Value → Option TypeSpec → List AccessSelectorWire → Prop
  | _, _, [] => True
  | val, ts, sel :: selectors => SelectorFits val ts sel ∧
      ChainFits (applySingleSelector val ts sel).1 (applySingleSelector val ts sel).2 selectors

theorem selectComponent_of_misfit {name : Octets}
    (misfit : ¬(val.type = some .struct ∧ ∃ idx, resolveComponentIndex ts name = some idx ∧
      idx < val.elements.length)) :
    selectComponent val ts name = (.nil, none) := by
  unfold selectComponent
  by_cases structured : val.type = some .struct
  · rw [if_neg (not_not.mpr structured)]
    cases resolved : resolveComponentIndex ts name with
    | none => rfl
    | some idx =>
      have beyond : val.elements.length ≤ idx := by
        by_contra inside
        exact misfit ⟨structured, idx, resolved, by omega⟩
      simp only [List.getElem?_eq_none beyond]
  · rw [if_pos structured]

theorem selectIndex_of_misfit
    (misfit : ¬(val.IsComposite ∧ 0 ≤ position.toInt ∧ position.toInt < val.elements.length)) :
    selectIndex val ts position = (.nil, none) := by
  have zero : (0 : Int64).toInt = 0 := rfl
  cases val with
  | array elems | struct elems =>
    simp only [Value.IsComposite, Value.type, Value.elements, true_or, or_true, true_and] at misfit
    simp only [selectIndex]
    split_ifs with negative
    · rfl
    · rw [getElem?_of_outside (.inr ?_) negative]
      rw [Int64.lt_iff_toInt_lt, zero] at negative
      omega
  | _ => rfl

theorem selectRange_of_misfit {start count : Int64}
    (sound : ∀ elems, val = .array elems → ¬RangePanics start count elems.length)
    (misfit : ¬(val.type = some .array ∧ 0 ≤ start.toInt ∧ 0 ≤ count.toInt ∧
      start.toInt + count.toInt ≤ val.elements.length)) :
    selectRange val start count = .nil := by
  cases val with
  | array elems =>
    simp only [Value.type, Value.elements, true_and] at misfit
    simp only [selectRange]
    split_ifs with outside
    · rfl
    · rw [Bool.not_eq_true] at outside
      obtain ⟨low, counted, inside, -⟩ := inside_iff.mp ⟨outside, sound elems rfl⟩
      exact (misfit ⟨low, counted, inside⟩).elim
  | _ => rfl

/-- A selector that does not fit and does not panic leads to nil. -/
theorem applySingleSelector_of_misfit
    (sound : ∀ elems range, val = .array elems → WireSelectsRange sel range →
      ¬RangePanics range.lowIndex range.numberOfElements elems.length)
    (misfit : ¬SelectorFits val ts sel) : (applySingleSelector val ts sel).1 = .nil := by
  unfold SelectorFits at misfit
  unfold applySingleSelector
  by_cases named : sel.component ≠ []
  · rw [if_pos named] at misfit ⊢
    rw [selectComponent_of_misfit misfit]
  · rw [if_neg named] at misfit ⊢
    cases indexed : sel.hasIndex with
    | true =>
      rw [indexed, if_pos rfl] at misfit
      rw [if_pos rfl, selectIndex_of_misfit misfit]
    | false =>
      simp only [indexed, Bool.false_eq_true, ↓reduceIte] at misfit ⊢
      cases ranged : sel.indexRange with
      | none => rfl
      | some range =>
        rw [not_not] at named
        exact selectRange_of_misfit
          (fun elems array => sound elems range array ⟨named, indexed, ranged⟩)
          (fun fits => misfit ⟨range, ranged, fits⟩)

/-- A chain that does not fit and does not panic leads to nil. -/
theorem applyAlternateAccessRead_of_misfit {selectors : List AccessSelectorWire}
    (sound : ¬PathPanics val ts selectors) (misfit : ¬ChainFits val ts selectors) :
    applyAlternateAccessRead val ts selectors = .nil := by
  induction selectors generalizing val ts with
  | nil => exact (misfit trivial).elim
  | cons sel selectors ih =>
    by_cases absent : val = .nil
    · rw [absent, read_nil]
    · rw [pathPanics_cons absent, not_or] at sound
      rw [applyAlternateAccessRead_cons absent]
      by_cases fits : SelectorFits val ts sel
      · exact ih sound.2 fun rest => misfit ⟨fits, rest⟩
      · rw [applySingleSelector_of_misfit
          (fun elems range array ranged panics => sound.1 ⟨elems, range, array, ranged, panics⟩)
          fits, read_nil]

end Read

end GoMms.Mms
