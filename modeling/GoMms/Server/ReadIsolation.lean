import GoMms.Mms.Deliverable
import GoMms.Server.Access

/-!
# What a Read delivers

The result of a variable is a function of its entry and of what its read callback answers. The
response is marshalled as a whole, so one value that has no encoding takes the results of all
other variables with it.
-/

namespace GoMms.Server

open Mms Pdu Serverconn Servermodel Tracing

variable {Read Write : Type}

/-! ## Results of single variables -/

/-- What the read callback of a variable answers; `none` if there is none to call. -/
abbrev ReadAnswer := Option (Except CallbackError Value)

/-- The read callback of a variable. -/
def Objects.reader (objects : Objects Read Write) (spec : VariableSpecWire) : Option Read :=
  (objects.find spec.name).bind fun entry => entry.readFunc.readFn

/-- The answers of the callbacks, in the order of the variables. -/
def answers {σ : Type} (app : Application σ Read Write) (objects : Objects Read Write) :
    List VariableSpecWire → σ → List ReadAnswer
  | [], _ => []
  | spec :: specs, state =>
    match objects.reader spec with
    | none => none :: answers app objects specs state
    | some readFn =>
      some (app.read readFn state).1 :: answers app objects specs (app.read readFn state).2

section Own

variable (runtime : Runtime) (objects : Objects Read Write)

/-- The result of a variable whose callback gave the answer. -/
def ownResult (spec : VariableSpecWire) (answer : ReadAnswer) : AccessResult :=
  match objects.find spec.name with
  | none => .error wireErrObjectNonExistent
  | some entry =>
    match answer with
    | none => .error wireErrAccessDenied
    | some (.error err) => .error (callbackErrCode err)
    | some (.ok val) =>
      selectedResult runtime (extractTypeSpec entry.typeSpec) spec.alternateAccess val

/-- The part of a value that a variable asks for. -/
def selectedValue (ts : Option TypeSpec) (selectors : List AccessSelectorWire) (val : Value) :
    Value :=
  if selectors.length > 0 then applyAlternateAccessRead val ts selectors else val

/-- The value that was read, or the part asked for, has an encoding if it is converted. -/
def Deliverable (spec : VariableSpecWire) (answer : ReadAnswer) : Prop :=
  ∀ entry val, objects.find spec.name = some entry → answer = some (.ok val) →
    (∀ leaf ∈ (selectedValue (extractTypeSpec entry.typeSpec) spec.alternateAccess val).leaves,
      leaf.Convertible) →
    ∀ leaf ∈ (selectedValue (extractTypeSpec entry.typeSpec) spec.alternateAccess val).leaves,
      leaf.Expressible

/-- The octets show the result of the variable: its encoding, or an access error if it has none. -/
def Shows (spec : VariableSpecWire) (answer : ReadAnswer) (octets : Octets) : Prop :=
  encodeAccessResult runtime (ownResult runtime objects spec answer) = .ok octets ∨
    (∀ wire, encodeAccessResult runtime (ownResult runtime objects spec answer) ≠ .ok wire) ∧
      ∃ code, IsAccessCode code ∧
        octets = Berutil.encodeTLV tagDataAccessError (encodeSmallInt code)

end Own

section Loop

variable {σ : Type} (runtime : Runtime) (app : Application σ Read Write)
  (objects : Objects Read Write)

theorem length_answers (specs : List VariableSpecWire) (state : σ) :
    (answers app objects specs state).length = specs.length := by
  induction specs generalizing state with
  | nil => rfl
  | cons spec specs ih =>
    rw [answers]
    split <;> rw [List.length_cons, List.length_cons, ih]

/-- The loop gives every variable its own result. -/
theorem runAll_readVariable (specs : List VariableSpecWire)
    (world : World σ (CallbackEvent Read Write)) :
    (runAll (readVariable runtime app objects) specs world).1 =
      List.zipWith (ownResult runtime objects) specs (answers app objects specs world.state) := by
  induction specs generalizing world with
  | nil => rfl
  | cons spec specs ih =>
    rw [runAll_cons, ih]
    cases found : objects.find spec.name with
    | none =>
      have silent : objects.reader spec = none := by simp [Objects.reader, found]
      simp [answers, silent, readVariable, ownResult, found]
    | some entry =>
      cases callback : entry.readFunc.readFn with
      | none =>
        have silent : objects.reader spec = none := by
          simp [Objects.reader, found, callback]
        simp [answers, silent, readVariable, ownResult, found, callback]
      | some readFn =>
        have calls : objects.reader spec = some readFn := by
          simp [Objects.reader, found, callback]
        cases outcome : (app.read readFn world.state).1 <;>
          simp [answers, calls, readVariable, ownResult, found, callback, World.call, outcome]

end Loop

/-! ## Encoding -/

section Encoding

variable {runtime : Runtime} {objects : Objects Read Write}

theorem encodeAccessResult_valueResult (val : Value) :
    (∃ wire, encodeAccessResult runtime (valueResult runtime val) = .ok wire) ↔
      ((∀ leaf ∈ val.leaves, leaf.Convertible) → ∀ leaf ∈ val.leaves, leaf.Expressible) := by
  have converts : (∃ dv, valueToDataValue runtime val = .ok dv) ↔ _ := valueToDataValue_ok_iff val
  cases converted : valueToDataValue runtime val with
  | error text =>
    rw [converted] at converts
    have refused : ¬ ∀ leaf ∈ val.leaves, leaf.Convertible := by simpa using converts
    simp [valueResult, converted, encodeAccessResult, refused]
  | ok dv =>
    rw [converted] at converts
    have accepted := converts.mp ⟨dv, rfl⟩
    rw [imp_iff_right accepted, ← marshalData_ok_iff converted, valueResult, converted]
    simp only [encodeAccessResult]
    cases marshalData runtime dv <;> simp

theorem encodeAccessResult_ownResult (spec : VariableSpecWire) (answer : ReadAnswer) :
    (∃ wire, encodeAccessResult runtime (ownResult runtime objects spec answer) = .ok wire) ↔
      Deliverable objects spec answer := by
  unfold ownResult
  split
  · next missing => simp [encodeAccessResult, Deliverable, missing]
  rename_i entry found
  split
  · simp [encodeAccessResult, Deliverable]
  · simp [encodeAccessResult, Deliverable]
  rename_i val
  have own : Deliverable objects spec (some (.ok val)) ↔ _ :=
    ⟨fun deliverable => deliverable entry val found rfl,
      fun selected other val' found' same => by
      cases found.symm.trans found'
      cases same
      exact selected⟩
  rw [own, selectedResult, selectedValue]
  split
  · split
    · next gone => simp [gone, encodeAccessResult, Value.leaves, Value.Convertible]
    · exact encodeAccessResult_valueResult _
  · exact encodeAccessResult_valueResult _

theorem encodeAccessResults_ok {results : List AccessResult} {inner : Octets}
    (encoded : encodeAccessResults runtime results = .ok inner) :
    ∀ result ∈ results, ∃ wire, encodeAccessResult runtime result = .ok wire := by
  induction results generalizing inner with
  | nil => simp
  | cons result results ih =>
    simp only [encodeAccessResults] at encoded
    split at encoded
    · cases encoded
    rename_i wire first
    split at encoded
    · cases encoded
    · next rest others => exact List.forall_mem_cons.mpr ⟨⟨wire, first⟩, ih others⟩

theorem encodeAccessResults_map {results : List AccessResult} {encode : AccessResult → Octets}
    (encoded : ∀ result ∈ results, encodeAccessResult runtime result = .ok (encode result)) :
    encodeAccessResults runtime results = .ok (results.map encode).flatten := by
  induction results with
  | nil => rfl
  | cons result results ih =>
    obtain ⟨first, others⟩ := List.forall_mem_cons.mp encoded
    simp only [encodeAccessResults, first, ih others, List.map_cons, List.flatten_cons]

end Encoding

/-! ## Isolation -/

/-- What a Read asks to be echoed in front of its results. -/
def readEcho (req : ReadRequestWire) (specs : List VariableSpecWire) : Except String Octets :=
  if req.specWithResult then encodeEcho req.listName specs else .ok []

section Requests

variable {σ : Type} (runtime : Runtime) (app : Application σ Read Write)
  (objects : Objects Read Write)

/-- The Read succeeds with a result for each variable in their order, and each is determined by
the variable and the answer of its callback alone. -/
def Isolates (body : Octets) (req : ReadRequestWire) (specs : List VariableSpecWire) (state : σ) :
    Prop :=
  ∃ (echo : Octets) (deliver : VariableSpecWire → ReadAnswer → Octets) (results : List Octets),
    readEcho req specs = .ok echo ∧
    (∀ spec answer, Shows runtime objects spec answer (deliver spec answer)) ∧
    results = List.zipWith deliver specs (answers app objects specs state) ∧
    results.length = specs.length ∧
    (handleRead runtime app objects body ⟨state, []⟩).1 =
      .response tagNumRead true
        (echo ++ Berutil.encodeTLV tagReadListOfAccessResult results.flatten)

variable {body : Octets} {req : ReadRequestWire} {specs : List VariableSpecWire}

theorem readEcho_ok (parsed : unmarshalReadRequestParsed body = .ok req)
    (resolved : objects.specs req.listName req.vars = some specs) :
    ∃ echo, readEcho req specs = .ok echo := by
  obtain ⟨known, sendable⟩ := unmarshalReadRequestParsed_sendable parsed
  unfold readEcho
  split
  · refine encodeEcho_sendable known fun unnamed => ?_
    rw [unnamed, Objects.specs] at resolved
    cases resolved
    exact sendable
  · exact ⟨[], rfl⟩

/-- A decoded Read, by the echo and the results of its variables. -/
theorem handleRead_eq (parsed : unmarshalReadRequestParsed body = .ok req)
    (resolved : objects.specs req.listName req.vars = some specs) {echo : Octets}
    (echoed : readEcho req specs = .ok echo) (state : σ) :
    (handleRead runtime app objects body ⟨state, []⟩).1 =
      match encodeAccessResults runtime
        (List.zipWith (ownResult runtime objects) specs (answers app objects specs state)) with
      | .error text => .failure ("marshal read response: " ++ text)
      | .ok inner => .response tagNumRead true
          (echo ++ Berutil.encodeTLV tagReadListOfAccessResult inner) := by
  have results := runAll_readVariable runtime app objects specs ⟨state, []⟩
  simp only [handleRead, parsed, resolved, results]
  unfold readEcho at echoed
  split at echoed
  · rename_i asked
    simp only [asked, if_true, marshalReadResponseWithSpec, echoed]
    cases encodeAccessResults runtime (List.zipWith (ownResult runtime objects) specs
      (answers app objects specs state)) <;> rfl
  rename_i plain
  cases echoed
  simp only [plain, if_false, marshalReadResponse, List.nil_append, Bool.false_eq_true]
  cases encodeAccessResults runtime (List.zipWith (ownResult runtime objects) specs
    (answers app objects specs state)) <;> rfl

end Requests

/-- The encoding of a result, or an access error if it has none. -/
def shownAs (runtime : Runtime) (result : AccessResult) : Octets :=
  match encodeAccessResult runtime result with
  | .ok wire => wire
  | .error _ => Berutil.encodeTLV tagDataAccessError (encodeSmallInt wireErrTempUnavail)

theorem shows_shownAs (runtime : Runtime) (objects : Objects Read Write) (spec : VariableSpecWire)
    (answer : ReadAnswer) :
    Shows runtime objects spec answer
      (shownAs runtime (ownResult runtime objects spec answer)) := by
  unfold Shows shownAs
  cases encodeAccessResult runtime (ownResult runtime objects spec answer) with
  | ok wire => exact .inl rfl
  | error text => exact .inr ⟨by simp, wireErrTempUnavail, ⟨by decide, by decide⟩, rfl⟩

/-- The failures of a Read are isolated if and only if every value that is read and converted has
an encoding. -/
theorem read_isolates_iff {σ : Type} (runtime : Runtime) (app : Application σ Read Write)
    (objects : Objects Read Write) {body : Octets} {req : ReadRequestWire}
    {specs : List VariableSpecWire} (parsed : unmarshalReadRequestParsed body = .ok req)
    (resolved : objects.specs req.listName req.vars = some specs) (state : σ) :
    Isolates runtime app objects body req specs state ↔
      ∀ pair ∈ specs.zip (answers app objects specs state), Deliverable objects pair.1 pair.2 := by
  obtain ⟨echo, echoed⟩ := readEcho_ok objects parsed resolved
  have handled := handleRead_eq runtime app objects parsed resolved echoed state
  have paired : List.zipWith (ownResult runtime objects) specs (answers app objects specs state) =
      (specs.zip (answers app objects specs state)).map
        fun pair => ownResult runtime objects pair.1 pair.2 := by
    rw [List.zip, List.map_zipWith]
  constructor
  · rintro ⟨_, deliver, results, -, -, -, -, response⟩ pair member
    rw [handled] at response
    split at response
    · cases response
    rename_i inner encoded
    rw [paired] at encoded
    rw [← encodeAccessResult_ownResult]
    exact encodeAccessResults_ok encoded _ (List.mem_map.mpr ⟨pair, member, rfl⟩)
  · intro deliverable
    refine ⟨echo, fun spec answer => shownAs runtime (ownResult runtime objects spec answer), _,
      echoed, shows_shownAs runtime objects, rfl, ?_, ?_⟩
    · rw [List.length_zipWith, length_answers, Nat.min_self]
    · have each : ∀ result ∈ List.zipWith (ownResult runtime objects) specs
          (answers app objects specs state),
          encodeAccessResult runtime result = .ok (shownAs runtime result) := by
        rw [paired]
        intro result member
        obtain ⟨pair, among, rfl⟩ := List.mem_map.mp member
        obtain ⟨wire, own⟩ := (encodeAccessResult_ownResult _ _).mpr (deliverable pair among)
        rw [shownAs, own]
      rw [handled, encodeAccessResults_map each, List.map_zipWith]

/-! Two variables, `M` and `N`, that are read together. -/

def sampleReader (itemID : Octets) (fn : Bool) : VarEntry (Dynamic Bool Unit) :=
  { scope := 0, domain := [], itemID := itemID, typeSpec := .other, deletable := false
    readFunc := .readFunc (some fn), writeFunc := .other }

def sampleReadObjects : Objects Bool Unit where
  registry :=
    let (_, registry, _) :=
      Registry.registerVariable listOps (sampleReader [0x4d] true) (Registry.new listOps) ()
    let (_, registry, _) :=
      Registry.registerVariable listOps (sampleReader [0x4e] false) registry ()
    registry
  connection := none

def sampleReadBody : Octets :=
  [0xa1, 0x10, 0xa0, 0x0e, 0x30, 0x05, 0xa0, 0x03, 0x80, 0x01, 0x4d, 0x30, 0x05, 0xa0, 0x03, 0x80,
    0x01, 0x4e]

def sampleReadSpecs : List VariableSpecWire :=
  [⟨{ scope := scopeVMD, itemID := [0x4d] }, []⟩, ⟨{ scope := scopeVMD, itemID := [0x4e] }, []⟩]

/-- `M` is true and the callback of `N` answers as given. -/
def sampleReadings (second : Except CallbackError Value) : Application Unit Bool Unit where
  read fn state := (if fn then .ok (.boolean true) else second, state)
  write _ _ state := (.error .other, state)

theorem parsed_sampleReadBody :
    unmarshalReadRequestParsed sampleReadBody = .ok { vars := sampleReadSpecs } := by
  decide +kernel

theorem answers_sampleReadSpecs (second : Except CallbackError Value) :
    answers (sampleReadings second) sampleReadObjects sampleReadSpecs () =
      [some (.ok (.boolean true)), some second] := by
  have first : sampleReadObjects.reader ⟨{ scope := scopeVMD, itemID := [0x4d] }, []⟩ =
      some true := by
    decide +kernel
  have last : sampleReadObjects.reader ⟨{ scope := scopeVMD, itemID := [0x4e] }, []⟩ =
      some false := by
    decide +kernel
  simp only [sampleReadSpecs, answers, first, last, sampleReadings, if_true, if_false,
    Bool.false_eq_true]

/-- A callback that fails does not disturb the other variable. -/
theorem read_isolates_iff_failing :
    Isolates default (sampleReadings (.error .other)) sampleReadObjects sampleReadBody
      { vars := sampleReadSpecs } sampleReadSpecs () := by
  refine (read_isolates_iff default (sampleReadings (.error .other)) sampleReadObjects
    parsed_sampleReadBody rfl ()).mpr ?_
  rw [answers_sampleReadSpecs, sampleReadSpecs]
  simp only [List.zip_cons_cons, List.zip_nil_right, List.forall_mem_cons]
  refine ⟨?_, ?_, by simp⟩
  · rintro entry _ - ⟨⟩
    simp [selectedValue, Value.leaves, Value.Expressible]
  · rintro entry _ - ⟨⟩

/-- A text that is not UTF-8 suppresses the other variable. -/
theorem read_suppressed :
    ¬ Isolates default (sampleReadings (.ok (.mmsString [0xff]))) sampleReadObjects sampleReadBody
      { vars := sampleReadSpecs } sampleReadSpecs () := by
  rintro ⟨echo, deliver, results, -, -, -, -, response⟩
  have failed : (handleRead default (sampleReadings (.ok (.mmsString [0xff]))) sampleReadObjects
      sampleReadBody ⟨(), []⟩).1 =
        .failure ("marshal read response: read response: marshal data: " ++ errMmsStringUTF8) := by
    decide +kernel
  cases failed.symm.trans response

end GoMms.Server
