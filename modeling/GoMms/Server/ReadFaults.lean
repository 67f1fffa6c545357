import GoMms.Mms.SelectionFaults
import GoMms.Server.ReadIsolation

/-!
# Reads that panic

The selectors of a list that the application registers are stored as they are. `handleRead` applies
them to whatever the variables answer, so a Read of the list by name panics exactly when a selector
of a member takes from an array a range that passes the check although its end lies before its
start. Otherwise a member whose selectors do not fit its value gets an access error.
-/

namespace GoMms.Server

open Mms Pdu Serverconn Servermodel Tracing

variable {Read Write : Type}

/-! ## The handler with its accesses -/

section Handler

variable {σ : Type} (runtime : Runtime) (app : Application σ Read Write)
  (objects : Objects Read Write)

def selectedResultChecked (ts : Option TypeSpec) (selectors : List AccessSelectorWire)
    (val : Value) : Except Fault AccessResult :=
  if selectors.length > 0 then
    match applyAlternateAccessReadChecked val ts selectors with
    | .error fault => .error fault
    | .ok .nil => .ok (.error wireErrObjectUndefined)
    | .ok selected => .ok (valueResult runtime selected)
  else .ok (valueResult runtime val)

/-- One pass of the loop of `handleRead`. -/
def readVariableChecked (spec : VariableSpecWire) (world : World σ (CallbackEvent Read Write)) :
    Except Fault (AccessResult × World σ (CallbackEvent Read Write)) :=
  match objects.find spec.name with
  | none => .ok (.error wireErrObjectNonExistent, world)
  | some entry =>
    match entry.readFunc.readFn with
    | none => .ok (.error wireErrAccessDenied, world)
    | some readFn =>
      match world.call (app.read readFn) (.read readFn) with
      | (.error err, world) => .ok (.error (callbackErrCode err), world)
      | (.ok val, world) =>
        match selectedResultChecked runtime (extractTypeSpec entry.typeSpec)
          spec.alternateAccess val with
        | .error fault => .error fault
        | .ok result => .ok (result, world)

/-- `handleRead` with the accesses of its selectors. -/
def handleReadChecked (body : Octets) (world : World σ (CallbackEvent Read Write)) :
    Except Fault (HandlerResult × World σ (CallbackEvent Read Write)) :=
  match unmarshalReadRequestParsed body with
  | .error _ => .ok (errInvalidRequest, world)
  | .ok req =>
    match objects.specs req.listName req.vars with
    | none => .ok (errObjectNonExistent, world)
    | some specs =>
      match runAllChecked (readVariableChecked runtime app objects) specs world with
      | .error fault => .error fault
      | .ok (accessResults, world) =>
        let marshalled :=
          if req.specWithResult then
            marshalReadResponseWithSpec runtime req.listName specs accessResults
          else marshalReadResponse runtime accessResults
        match marshalled with
        | .error text => .ok (.failure ("marshal read response: " ++ text), world)
        | .ok respBytes => .ok (.response tagNumRead true respBytes, world)

/-- The selectors of the variable panic on what its callback answered. -/
def VariablePanics (spec : VariableSpecWire) (answer : ReadAnswer) : Prop :=
  ∃ entry val, objects.find spec.name = some entry ∧ answer = some (.ok val) ∧
    PathPanics val (extractTypeSpec entry.typeSpec) spec.alternateAccess

theorem selectedResultChecked_cases (ts : Option TypeSpec) (selectors : List AccessSelectorWire)
    (val : Value) :
    PathPanics val ts selectors ∧
        selectedResultChecked runtime ts selectors val = .error .sliceOutOfRange ∨
      ¬PathPanics val ts selectors ∧ selectedResultChecked runtime ts selectors val =
        .ok (selectedResult runtime ts selectors val) := by
  unfold selectedResultChecked selectedResult
  by_cases some : selectors.length > 0
  · rw [if_pos some, if_pos some]
    rcases applyAlternateAccessReadChecked_cases val ts selectors with
      ⟨panics, stuck⟩ | ⟨sound, read⟩
    · rw [stuck]
      exact .inl ⟨panics, rfl⟩
    · rw [read]
      refine .inr ⟨sound, ?_⟩
      cases applyAlternateAccessRead val ts selectors <;> rfl
  · rw [if_neg some, if_neg some]
    refine .inr ⟨?_, rfl⟩
    rintro ⟨before, sel, after, elems, range, rfl, -⟩
    simp at some

/-- One pass, with the answer of the callback. -/
theorem readVariableChecked_cases (spec : VariableSpecWire) (specs : List VariableSpecWire)
    (world : World σ (CallbackEvent Read Write)) :
    ∃ answer, answers app objects (spec :: specs) world.state =
        answer :: answers app objects specs (readVariable runtime app objects spec world).2.state ∧
      (VariablePanics objects spec answer ∧
          readVariableChecked runtime app objects spec world = .error .sliceOutOfRange ∨
        ¬VariablePanics objects spec answer ∧ readVariableChecked runtime app objects spec world =
          .ok (readVariable runtime app objects spec world)) := by
  unfold readVariableChecked readVariable VariablePanics
  cases found : objects.find spec.name with
  | none =>
    have silent : objects.reader spec = none := by simp [Objects.reader, found]
    refine ⟨none, by simp [answers, silent], .inr ⟨?_, rfl⟩⟩
    rintro ⟨_, _, ⟨⟩, -⟩
  | some entry =>
    cases callback : entry.readFunc.readFn with
    | none =>
      have silent : objects.reader spec = none := by simp [Objects.reader, found, callback]
      refine ⟨none, by simp [answers, silent, callback], .inr ⟨?_, by simp only [callback]⟩⟩
      rintro ⟨_, _, _, ⟨⟩, _⟩
    | some readFn =>
      have calls : objects.reader spec = some readFn := by
        simp [Objects.reader, found, callback]
      refine ⟨some (app.read readFn world.state).1, ?_, ?_⟩
      · cases outcome : (app.read readFn world.state).1 <;>
          simp [answers, calls, callback, World.call, outcome]
      · cases outcome : (app.read readFn world.state).1 with
        | error err =>
          refine .inr ⟨?_, by simp [callback, World.call, outcome]⟩
          rintro ⟨_, _, _, ⟨⟩, _⟩
        | ok val =>
          rcases selectedResultChecked_cases runtime (extractTypeSpec entry.typeSpec)
            spec.alternateAccess val with ⟨panics, stuck⟩ | ⟨sound, read⟩
          · refine .inl ⟨⟨entry, val, rfl, rfl, panics⟩, ?_⟩
            simp [callback, World.call, outcome, stuck]
          · refine .inr ⟨?_, by simp [callback, World.call, outcome, read]⟩
            rintro ⟨_, _, ⟨⟩, ⟨⟩, panics⟩
            exact sound panics

/-- The loop panics when the selectors of a variable do, and otherwise is the plain loop. -/
theorem runAllChecked_readVariable_cases (specs : List VariableSpecWire)
    (world : World σ (CallbackEvent Read Write)) :
    (∃ pair ∈ specs.zip (answers app objects specs world.state),
        VariablePanics objects pair.1 pair.2) ∧
        runAllChecked (readVariableChecked runtime app objects) specs world =
          .error .sliceOutOfRange ∨
      (∀ pair ∈ specs.zip (answers app objects specs world.state),
        ¬VariablePanics objects pair.1 pair.2) ∧
        runAllChecked (readVariableChecked runtime app objects) specs world =
          .ok (runAll (readVariable runtime app objects) specs world) := by
  induction specs generalizing world with
  | nil => exact .inr ⟨by simp, rfl⟩
  | cons spec specs ih =>
    obtain ⟨answer, answered, here⟩ :=
      readVariableChecked_cases runtime app objects spec specs world
    rw [answered, List.zip_cons_cons, List.exists_mem_cons_iff, List.forall_mem_cons]
    simp only [runAllChecked, runAll_cons]
    rcases here with ⟨panics, stuck⟩ | ⟨sound, passed⟩
    · rw [stuck]
      exact .inl ⟨.inl panics, rfl⟩
    · rw [passed, ok_bind]
      rcases ih (readVariable runtime app objects spec world).2 with
        ⟨later, stuck⟩ | ⟨later, passed⟩
      · rw [stuck]
        exact .inl ⟨.inr later, rfl⟩
      · rw [passed, ok_bind]
        exact .inr ⟨⟨sound, later⟩, rfl⟩

/-- The handler panics when the selectors of a variable do, and otherwise is the plain one. -/
theorem handleReadChecked_cases {body : Octets} {req : ReadRequestWire}
    {specs : List VariableSpecWire} (parsed : unmarshalReadRequestParsed body = .ok req)
    (resolved : objects.specs req.listName req.vars = some specs)
    (world : World σ (CallbackEvent Read Write)) :
    (∃ pair ∈ specs.zip (answers app objects specs world.state),
        VariablePanics objects pair.1 pair.2) ∧
        handleReadChecked runtime app objects body world = .error .sliceOutOfRange ∨
      (∀ pair ∈ specs.zip (answers app objects specs world.state),
        ¬VariablePanics objects pair.1 pair.2) ∧
        handleReadChecked runtime app objects body world =
          .ok (handleRead runtime app objects body world) := by
  unfold handleReadChecked handleRead
  simp only [parsed, resolved]
  rcases runAllChecked_readVariable_cases runtime app objects specs world with
    ⟨panics, stuck⟩ | ⟨sound, passed⟩
  · rw [stuck]
    exact .inl ⟨panics, rfl⟩
  · rw [passed]
    refine .inr ⟨sound, ?_⟩
    dsimp only
    cases (if req.specWithResult then
        marshalReadResponseWithSpec runtime req.listName specs
          (runAll (readVariable runtime app objects) specs world).1
      else marshalReadResponse runtime
        (runAll (readVariable runtime app objects) specs world).1) with
    | error text => rfl
    | ok respBytes => rfl

/-- A variable whose selectors neither fit nor panic gets an access error. -/
theorem ownResult_of_misfit {spec : VariableSpecWire} {entry : VarEntry (Dynamic Read Write)}
    {val : Value} (found : objects.find spec.name = some entry)
    (sound : ¬VariablePanics objects spec (some (.ok val)))
    (misfit : ¬ChainFits val (extractTypeSpec entry.typeSpec) spec.alternateAccess) :
    ownResult runtime objects spec (some (.ok val)) = .error wireErrObjectUndefined := by
  have some : spec.alternateAccess.length > 0 := by
    cases shape : spec.alternateAccess with
    | nil =>
      rw [shape] at misfit
      exact (misfit trivial).elim
    | cons sel selectors => simp
  have nothing := applyAlternateAccessRead_of_misfit
    (fun panics => sound ⟨entry, val, found, rfl, panics⟩) misfit
  simp only [ownResult, found, selectedResult, if_pos some, nothing]

end Handler

/-! ## Registered lists -/

/-- What a registered list is looked up as. -/
theorem lookupNVL_of_registered {Any : Type} {list : NamedVariableList}
    {before after : Registry Any (List Octets)}
    (registered : registerNamedVariableList list before = (.ok (), after)) :
    after.lookupNVL list.name = some list.entry := by
  unfold registerNamedVariableList at registered
  cases read : listEntry list with
  | error error =>
    rw [read] at registered
    cases registered
  | ok entry =>
    obtain ⟨rfl, -⟩ := listEntry_eq read
    rw [read] at registered
    simp only [Registry.defineNVL, Prod.mk.injEq] at registered
    obtain ⟨accepted, rfl⟩ := registered
    cases result : (before.nvls.register listOps before.domains list.entry ()).1 with
    | error error =>
      rw [result] at accepted
      cases accepted
    | ok done =>
      have stored : (before.nvls.register listOps before.domains list.entry ()).2.1.find
          list.name = some list.entry := by
        rw [(Table.register_ok before.domains result).2, Table.find_add]
        exact if_pos rfl
      exact stored

/-- **When a Read of a registered list returns.** A Read by the name of a list, stored as it was
registered, returns exactly when no selector of a member takes from an array a range that passes
the check and panics, whatever the types of the members are and whatever their callbacks answer.
Then every member whose selectors do not fit its value has an access error as its result. -/
theorem registeredList_read_returns_iff {σ : Type} (runtime : Runtime)
    (app : Application σ Read Write) (objects : Objects Read Write) {list : NamedVariableList}
    {before after : Registry (Dynamic Read Write) (List Octets)}
    (registered : registerNamedVariableList list before = (.ok (), after)) {body : Octets}
    {req : ReadRequestWire} {name : ObjectNameWire}
    (parsed : unmarshalReadRequestParsed body = .ok req) (byName : req.listName = some name)
    (kept : lookupNVL objects.connection objects.registry name = after.lookupNVL list.name)
    (state : σ) :
    let specs := list.entry.members.map memberToWire
    ((∃ result, handleReadChecked runtime app objects body ⟨state, []⟩ = .ok result) ↔
      ∀ pair ∈ specs.zip (answers app objects specs state), ¬VariablePanics objects pair.1 pair.2) ∧
    ∀ result, handleReadChecked runtime app objects body ⟨state, []⟩ = .ok result →
      result = handleRead runtime app objects body ⟨state, []⟩ ∧
      ∀ (i : Nat) spec entry val, specs[i]? = some spec →
        (answers app objects specs state)[i]? = some (some (.ok val)) →
        objects.find spec.name = some entry →
        ¬ChainFits val (extractTypeSpec entry.typeSpec) spec.alternateAccess →
        (runAll (readVariable runtime app objects) specs ⟨state, []⟩).1[i]? =
          some (.error wireErrObjectUndefined) := by
  intro specs
  have resolved : objects.specs req.listName req.vars = some specs := by
    rw [lookupNVL_of_registered registered] at kept
    simp only [Objects.specs, byName, resolveNVLMembers, kept]
    rfl
  rcases handleReadChecked_cases runtime app objects parsed resolved ⟨state, []⟩ with
    ⟨⟨pair, member, panics⟩, stuck⟩ | ⟨sound, returned⟩
  · rw [stuck]
    refine ⟨iff_of_false (by rintro ⟨_, ⟨⟩⟩) fun sound => sound pair member panics, ?_⟩
    rintro _ ⟨⟩
  · rw [returned]
    refine ⟨iff_of_true ⟨_, rfl⟩ sound, ?_⟩
    rintro _ ⟨⟩
    refine ⟨rfl, fun i spec entry val here answered found misfit => ?_⟩
    have paired : (spec, some (.ok val)) ∈ specs.zip (answers app objects specs state) := by
      refine List.mem_of_getElem? (i := i) ?_
      rw [List.getElem?_zip_eq_some]
      exact ⟨here, answered⟩
    rw [runAll_readVariable, List.getElem?_zipWith_eq_some]
    exact ⟨spec, some (.ok val), here, answered,
      (ownResult_of_misfit runtime objects found (sound _ paired) misfit)⟩

/-! A variable `M` with an array of two integers, and a list `L` with one range of it. -/

def rangeList (start count : Int64) : NamedVariableList where
  name := ⟨0, [], [0x4c]⟩
  deletable := false
  specs := [⟨⟨0, [], [0x4d]⟩, [⟨[], none, some ⟨start, count⟩⟩]⟩]

def rangeRegistry : Registry (Dynamic Bool Unit) (List Octets) :=
  (Registry.registerVariable listOps (sampleReader [0x4d] true) (Registry.new listOps) ()).2.1

/-- The server after the registration of the list. -/
def rangeObjects (start count : Int64) : Objects Bool Unit where
  registry := (registerNamedVariableList (rangeList start count) rangeRegistry).2
  connection := none

def rangeReadings : Application Unit Bool Unit where
  read _ state := (.ok (.array [.integer 1, .integer 2]), state)
  write _ _ state := (.error .other, state)

def rangeBody : Octets := [0xa1, 0x05, 0xa1, 0x03, 0x80, 0x01, 0x4c]

theorem parsed_rangeBody :
    unmarshalReadRequestParsed rangeBody =
      .ok { listName := some { scope := 0, itemID := [0x4c] } } := by
  decide +kernel

/-- A range behind the end of the array is answered, with an access error for its member. -/
theorem registeredList_read_returns_behind :
    handleReadChecked default rangeReadings (rangeObjects 1 2) rangeBody ⟨(), []⟩ =
        .ok (handleRead default rangeReadings (rangeObjects 1 2) rangeBody ⟨(), []⟩) ∧
      (runAll (readVariable default rangeReadings (rangeObjects 1 2))
        ((rangeList 1 2).entry.members.map memberToWire) ⟨(), []⟩).1[0]? =
        some (.error wireErrObjectUndefined) := by
  have registered : registerNamedVariableList (rangeList 1 2) rangeRegistry =
      (.ok (), (rangeObjects 1 2).registry) := by
    refine Prod.ext ?_ rfl
    decide +kernel
  have found : (rangeObjects 1 2).find { scope := 0, itemID := [0x4d] } =
      some (sampleReader [0x4d] true) := by
    rfl
  have answered : answers rangeReadings (rangeObjects 1 2)
      ((rangeList 1 2).entry.members.map memberToWire) () =
      [some (.ok (.array [.integer 1, .integer 2]))] := by
    rfl
  obtain ⟨returns, results⟩ := registeredList_read_returns_iff default rangeReadings
    (rangeObjects 1 2) registered parsed_rangeBody rfl rfl ()
  have sound := returns.mpr (by
    rw [answered]
    rintro pair member ⟨entry, val, -, value, before, sel, after, elems, range, split, reached,
      ⟨-, -, ranged⟩, panics⟩
    obtain rfl := List.mem_singleton.mp member
    cases value
    cases before with
    | nil =>
      cases split
      cases ranged
      cases reached
      exact absurd panics (by decide)
    | cons head before => cases before <;> cases split)
  obtain ⟨result, returned⟩ := sound
  obtain ⟨rfl, misfits⟩ := results result returned
  refine ⟨returned, misfits 0 _ _ _ rfl (by rw [answered]; rfl) found ?_⟩
  rintro ⟨⟨range, ranged, -, -, -, inside⟩, -⟩
  cases ranged
  exact absurd inside (by decide)

/-- A count of -1 makes the Read of the registered list panic, and so does a count that wraps the
end of the range around. -/
theorem registeredList_read_panics :
    (registerNamedVariableList (rangeList 1 (-1)) rangeRegistry).1 = .ok () ∧
      handleReadChecked default rangeReadings (rangeObjects 1 (-1)) rangeBody ⟨(), []⟩ =
        .error .sliceOutOfRange ∧
      (registerNamedVariableList (rangeList 1 9223372036854775807) rangeRegistry).1 = .ok () ∧
      handleReadChecked default rangeReadings (rangeObjects 1 9223372036854775807) rangeBody
        ⟨(), []⟩ = .error .sliceOutOfRange := by
  refine ⟨by decide +kernel, ?_, by decide +kernel, ?_⟩
  · with_unfolding_all rfl
  · with_unfolding_all rfl

end GoMms.Server
