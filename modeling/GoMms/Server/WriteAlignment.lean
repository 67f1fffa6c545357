import GoMms.Server.Access
import GoMms.Serverconn.Negotiation

/-!
# What a Write does

`WritePass` says once which calls a pass of the loop of `handleWrite` makes and what result it
gives: at most one write, and for a member with selectors a read before it whose value the write
patches. The alignment of the results with the callbacks follows for every request.
-/

namespace GoMms.Server

open Mms Pdu Serverconn Servermodel Tracing

variable {Read Write : Type}

/-! ## Passes -/

/-- The result of a write callback. -/
def writeOutcome : Except CallbackError Unit → WriteResult
  | .error err => writeFailure (callbackErrCode err)
  | .ok () => ⟨true, 0⟩

/-- The variable of a member that has a value: its entry, its write callback and the value in its
public form. -/
structure Target (objects : Objects Read Write) (item : VariableSpecWire × Option DataValue)
    (entry : VarEntry (Dynamic Read Write)) (writeFn : Write) (sent : Value) : Prop where
  found : objects.find item.1.name = some entry
  callback : entry.writeFunc.writeFn = some writeFn
  valued : ∃ data, item.2 = some data ∧ dataValueToValue data = .ok sent

/-- What one pass of the loop can do: the result it gives and the calls it makes. -/
inductive WritePass (objects : Objects Read Write) (item : VariableSpecWire × Option DataValue) :
    WriteResult → List (CallbackEvent Read Write) → Prop
  | silent {code : Int64} (valid : IsAccessCode code) :
      WritePass objects item (writeFailure code) []
  | unreadable {entry : VarEntry (Dynamic Read Write)} {writeFn : Write} {sent : Value}
      {readFn : Read} {err : CallbackError} (target : Target objects item entry writeFn sent)
      (selects : item.1.alternateAccess ≠ []) (reader : entry.readFunc.readFn = some readFn) :
      WritePass objects item (writeFailure wireErrTempUnavail) [.read readFn (.error err)]
  | unpatchable {entry : VarEntry (Dynamic Read Write)} {writeFn : Write} {sent : Value}
      {readFn : Read} {current : Value} (target : Target objects item entry writeFn sent)
      (selects : item.1.alternateAccess ≠ []) (reader : entry.readFunc.readFn = some readFn)
      (refused : applyAlternateAccessWrite current (extractTypeSpec entry.typeSpec)
        item.1.alternateAccess sent = .nil) :
      WritePass objects item (writeFailure wireErrTypeInconsistent) [.read readFn (.ok current)]
  | whole {entry : VarEntry (Dynamic Read Write)} {writeFn : Write} {sent : Value}
      (outcome : Except CallbackError Unit) (target : Target objects item entry writeFn sent)
      (plain : item.1.alternateAccess = []) :
      WritePass objects item (writeOutcome outcome) [.write writeFn sent outcome]
  | patched {entry : VarEntry (Dynamic Read Write)} {writeFn : Write} {sent : Value}
      {readFn : Read} {current : Value} (outcome : Except CallbackError Unit)
      (target : Target objects item entry writeFn sent)
      (selects : item.1.alternateAccess ≠ []) (reader : entry.readFunc.readFn = some readFn)
      (accepted : applyAlternateAccessWrite current (extractTypeSpec entry.typeSpec)
        item.1.alternateAccess sent ≠ .nil) :
      WritePass objects item (writeOutcome outcome)
        [.read readFn (.ok current), .write writeFn (applyAlternateAccessWrite current
          (extractTypeSpec entry.typeSpec) item.1.alternateAccess sent) outcome]

/-- The outcome of the call is one the application gives. -/
def CallbackEvent.AnsweredBy {σ : Type} (app : Application σ Read Write) :
    CallbackEvent Read Write → Prop
  | .read fn outcome => ∃ state, (app.read fn state).1 = outcome
  | .write fn val outcome => ∃ state, (app.write fn val state).1 = outcome

/-- The calls of a pass, answered by the application. -/
def Performs {σ : Type} (app : Application σ Read Write) (objects : Objects Read Write)
    (item : VariableSpecWire × Option DataValue) (result : WriteResult)
    (trace : List (CallbackEvent Read Write)) : Prop :=
  WritePass objects item result trace ∧ ∀ event ∈ trace, event.AnsweredBy app

section Pass

variable {σ : Type} {app : Application σ Read Write} {objects : Objects Read Write}
  {item : VariableSpecWire × Option DataValue}

theorem callWrite_eq (app : Application σ Read Write) (writeFn : Write) (val : Value)
    (world : World σ (CallbackEvent Read Write)) :
    ∃ outcome, (CallbackEvent.write writeFn val outcome).AnsweredBy app ∧
      (callWrite app writeFn val world).1 = writeOutcome outcome ∧
      (callWrite app writeFn val world).2.calls = world.calls ++ [.write writeFn val outcome] := by
  refine ⟨(app.write writeFn val world.state).1, ⟨world.state, rfl⟩, ?_⟩
  simp only [callWrite, World.call]
  cases (app.write writeFn val world.state).1 <;> exact ⟨rfl, rfl⟩

theorem patchWrite_pass {entry : VarEntry (Dynamic Read Write)} {writeFn : Write} {sent : Value}
    (target : Target objects item entry writeFn sent) (selects : item.1.alternateAccess ≠ [])
    (world : World σ (CallbackEvent Read Write)) :
    ∃ trace, (patchWrite app entry item.1.alternateAccess writeFn sent world).2.calls =
        world.calls ++ trace ∧
      Performs app objects item
        (patchWrite app entry item.1.alternateAccess writeFn sent world).1 trace := by
  unfold patchWrite
  split
  · exact ⟨[], (List.append_nil _).symm, .silent ⟨by decide, by decide⟩, by simp⟩
  rename_i readFn reader
  simp only [World.call]
  cases answer : (app.read readFn world.state).1 with
  | error err =>
    exact ⟨[.read readFn (.error err)], rfl, .unreadable target selects reader,
      List.forall_mem_singleton.mpr ⟨world.state, answer⟩⟩
  | ok current =>
    simp only
    split
    · rename_i refused
      exact ⟨[.read readFn (.ok current)], rfl,
        .unpatchable target selects reader refused,
        List.forall_mem_singleton.mpr ⟨world.state, answer⟩⟩
    rename_i accepted
    obtain ⟨outcome, answered, result, calls⟩ := callWrite_eq app writeFn
      (applyAlternateAccessWrite current (extractTypeSpec entry.typeSpec)
        item.1.alternateAccess sent)
      ⟨(app.read readFn world.state).2, world.calls ++ [.read readFn (.ok current)]⟩
    rw [result, calls, List.append_assoc]
    exact ⟨_, rfl, .patched outcome target selects reader accepted,
      List.forall_mem_cons.mpr ⟨⟨world.state, answer⟩, List.forall_mem_singleton.mpr answered⟩⟩

/-- Every pass of the loop is one of the described passes. -/
theorem writeVariable_pass (item : VariableSpecWire × Option DataValue)
    (world : World σ (CallbackEvent Read Write)) :
    ∃ trace, (writeVariable app objects item world).2.calls = world.calls ++ trace ∧
      Performs app objects item (writeVariable app objects item world).1 trace := by
  have silent (code : Int64) (valid : IsAccessCode code) :
      ∃ trace, world.calls = world.calls ++ trace ∧
        Performs app objects item (writeFailure code) trace :=
    ⟨[], (List.append_nil _).symm, .silent valid, by simp⟩
  unfold writeVariable
  split
  · exact silent _ ⟨by decide, by decide⟩
  rename_i data valued
  split
  · exact silent _ ⟨by decide, by decide⟩
  rename_i entry found
  split
  · exact silent _ ⟨by decide, by decide⟩
  rename_i writeFn callback
  split
  · exact silent _ ⟨by decide, by decide⟩
  rename_i sent converted
  have target : Target objects item entry writeFn sent := ⟨found, callback, data, valued, converted⟩
  split_ifs with selects
  · exact patchWrite_pass target (List.ne_nil_of_length_pos selects) world
  · obtain ⟨outcome, answered, result, calls⟩ := callWrite_eq app writeFn sent world
    rw [result, calls]
    exact ⟨_, rfl, .whole outcome target
      (List.length_eq_zero_iff.mp (Nat.eq_zero_of_not_pos selects)),
      List.forall_mem_singleton.mpr answered⟩

end Pass

/-! ## Results line up with callbacks -/

/-- What the result of a member says about its callback. -/
structure LinesUp (objects : Objects Read Write) (item : VariableSpecWire × Option DataValue)
    (result : WriteResult) (trace : List (CallbackEvent Read Write)) : Prop where
  /-- At most one write. -/
  once : (trace.filter CallbackEvent.isWrite).length ≤ 1
  /-- No write without a value. -/
  unvalued : item.2 = none → ∀ event ∈ trace, event.isWrite = false
  /-- Success is a write callback that returned nil. -/
  success : result.success = true ↔ ∃ fn val, .write fn val (.ok ()) ∈ trace
  /-- The write goes to the callback of the variable, with the value sent or, if there are
  selectors, with the patched value that its read callback returned just before. -/
  own : ∀ fn val outcome, .write fn val outcome ∈ trace → ∃ entry sent,
    Target objects item entry fn sent ∧ (item.1.alternateAccess = [] → val = sent) ∧
    (item.1.alternateAccess ≠ [] → ∃ readFn current, entry.readFunc.readFn = some readFn ∧
      trace = [.read readFn (.ok current), .write fn val outcome] ∧
      val = applyAlternateAccessWrite current (extractTypeSpec entry.typeSpec)
        item.1.alternateAccess sent ∧ val ≠ .nil)

section Alignment

variable {objects : Objects Read Write} {item : VariableSpecWire × Option DataValue}
  {result : WriteResult} {trace : List (CallbackEvent Read Write)}

theorem success_writeOutcome (outcome : Except CallbackError Unit) :
    (writeOutcome outcome).success = true ↔ outcome = .ok () := by
  cases outcome with
  | error err => simp [writeOutcome, writeFailure]
  | ok done => simp [writeOutcome]

theorem WritePass.linesUp (pass : WritePass objects item result trace) :
    LinesUp objects item result trace := by
  cases pass with
  | silent | unreadable | unpatchable =>
    exact ⟨by simp, by simp, by simp [writeFailure], by simp⟩
  | whole outcome target plain =>
    obtain ⟨data, valued, -⟩ := target.valued
    refine ⟨List.length_filter_le _ _, by simp [valued], ?_, ?_⟩
    · rw [success_writeOutcome]
      simp [eq_comm]
    · intro fn val outcome' member
      cases List.mem_singleton.mp member
      exact ⟨_, _, target, fun _ => rfl, fun selects => (selects plain).elim⟩
  | patched outcome target selects reader accepted =>
    obtain ⟨data, valued, -⟩ := target.valued
    refine ⟨?_, by simp [valued], ?_, ?_⟩
    · rw [List.filter_cons_of_neg (by simp)]
      exact List.length_filter_le _ _
    · rw [success_writeOutcome]
      simp [eq_comm]
    · intro fn val outcome' member
      cases List.mem_singleton.mp (List.mem_of_ne_of_mem (by simp) member)
      exact ⟨_, _, target, fun plain => (selects plain).elim,
        fun _ => ⟨_, _, reader, rfl, rfl, accepted⟩⟩

end Alignment

theorem getElem?_members (specs : List VariableSpecWire) (values : List DataValue) (i : Nat) :
    (members specs values)[i]? = specs[i]?.map fun spec => (spec, values[i]?) := by
  simp [members, List.getElem?_zipIdx, Function.comp_def]

theorem length_members (specs : List VariableSpecWire) (values : List DataValue) :
    (members specs values).length = specs.length := by
  simp [members]

section Requests

variable {σ : Type} (runtime : Runtime) (app : Application σ Read Write)
  (objects : Objects Read Write)

/-- A decoded Write is a pass for each member, in their order, and a response with their
results. -/
theorem handleWrite_traced
    (describes : VariableSpecWire × Option DataValue → WriteResult →
      List (CallbackEvent Read Write) → Prop)
    (step : ∀ item world, ∃ trace,
      (writeVariable app objects item world).2.calls = world.calls ++ trace ∧
      describes item (writeVariable app objects item world).1 trace)
    {body : Octets} {req : WriteRequestWire} {specs : List VariableSpecWire}
    (parsed : unmarshalWriteRequestParsed runtime body = .ok req)
    (resolved : objects.specs req.listName req.vars = some specs)
    (world : World σ (CallbackEvent Read Write)) :
    ∃ runs : List (WriteResult × List (CallbackEvent Read Write)),
      (handleWrite runtime app objects body world).1 =
        .response tagNumWrite true (marshalWriteResponse (runs.map Prod.fst)) ∧
      (handleWrite runtime app objects body world).2.calls = world.calls ++ runs.flatMap Prod.snd ∧
      List.Forall₂ (fun item run => describes item run.1 run.2) (members specs req.values)
        runs := by
  obtain ⟨runs, results, calls, passes⟩ := runAll_traced describes step
    (members specs req.values) world
  refine ⟨runs, ?_, ?_, passes⟩
  · simp only [handleWrite, parsed, resolved, results]
  · simp only [handleWrite, parsed, resolved, calls]

/-- The results of a Write line up with its callbacks: one result for each member, the calls in
the order of the members, and each result says what the calls for its member did. -/
theorem writeResults_lineUp {body : Octets} {req : WriteRequestWire}
    {specs : List VariableSpecWire} (parsed : unmarshalWriteRequestParsed runtime body = .ok req)
    (resolved : objects.specs req.listName req.vars = some specs)
    (world : World σ (CallbackEvent Read Write)) :
    ∃ runs : List (WriteResult × List (CallbackEvent Read Write)),
      runs.length = specs.length ∧
      (handleWrite runtime app objects body world).1 =
        .response tagNumWrite true (marshalWriteResponse (runs.map Prod.fst)) ∧
      (handleWrite runtime app objects body world).2.calls = world.calls ++ runs.flatMap Prod.snd ∧
      ∀ (i : Nat) spec run, specs[i]? = some spec → runs[i]? = some run →
        LinesUp objects (spec, req.values[i]?) run.1 run.2 := by
  obtain ⟨runs, response, calls, passes⟩ := handleWrite_traced runtime app objects
    (Performs app objects) writeVariable_pass parsed resolved world
  refine ⟨runs, ?_, response, calls, fun i spec run member own => ?_⟩
  · rw [← passes.length_eq, length_members]
  · have item := getElem?_members specs req.values i
    rw [member] at item
    obtain ⟨inside, here⟩ := List.getElem?_eq_some_iff.mp item
    obtain ⟨inside', here'⟩ := List.getElem?_eq_some_iff.mp own
    have pass := (List.forall₂_iff_get.mp passes).2 i inside inside'
    rw [List.get_eq_getElem, List.get_eq_getElem, here, here'] at pass
    exact pass.1.linesUp

end Requests

/-! A server with a variable `M` and a list `L` that names it `count` times. A Write to the list
has one value, 7. -/

def sampleVariable : VarEntry (Dynamic Unit Unit) :=
  { scope := 0, domain := [], itemID := [0x4d], typeSpec := .other, deletable := false
    readFunc := .readFunc none, writeFunc := .writeFunc (some ()) }

def sampleList (count : Nat) : NVLEntry :=
  { scope := 0, domain := [], itemID := [0x4c], deletable := false
    members := List.replicate count
      { scope := 0, domain := [], itemID := [0x4d], alternateAccess := [] } }

def sampleObjects (count : Nat) : Objects Unit Unit where
  registry :=
    let (_, registry, _) :=
      Registry.registerVariable listOps sampleVariable (Registry.new listOps) ()
    let (_, registry, _) := Registry.defineNVL listOps (sampleList count) registry ()
    registry
  connection := none

def sampleWriteBody : Octets := [0xa1, 0x03, 0x80, 0x01, 0x4c, 0xa0, 0x03, 0x85, 0x01, 0x07]

/-- An application that accepts every write. -/
def accepting : Application Unit Unit Unit where
  read _ state := (.ok .nil, state)
  write _ _ state := (.ok (), state)

theorem parsed_sampleWriteBody :
    ∃ req, unmarshalWriteRequestParsed default sampleWriteBody = .ok req ∧
      req.listName = some { scope := 0, itemID := [0x4c] } := by
  have names : (unmarshalWriteRequestParsed default sampleWriteBody).toOption.map
      WriteRequestWire.listName = some (some { scope := 0, itemID := [0x4c] }) := by
    decide +kernel
  cases parsed : unmarshalWriteRequestParsed default sampleWriteBody with
  | error text =>
    rw [parsed] at names
    cases names
  | ok req =>
    rw [parsed] at names
    exact ⟨req, rfl, Option.some.inj names⟩

/-- Two members and one value. -/
theorem writeResults_lineUp_pair :
    ∃ (req : WriteRequestWire) (specs : List VariableSpecWire)
      (runs : List (WriteResult × List (CallbackEvent Unit Unit))),
      specs.length = 2 ∧ runs.length = 2 ∧
      (handleWrite default accepting (sampleObjects 2) sampleWriteBody ⟨(), []⟩).1 =
        .response tagNumWrite true (marshalWriteResponse (runs.map Prod.fst)) ∧
      ∀ (i : Nat) spec run, specs[i]? = some spec → runs[i]? = some run →
        LinesUp (sampleObjects 2) (spec, req.values[i]?) run.1 run.2 := by
  obtain ⟨req, parsed, named⟩ := parsed_sampleWriteBody
  have resolved : (sampleObjects 2).specs req.listName req.vars =
      some (List.replicate 2
        { name := { scope := 0, itemID := [0x4d] }, alternateAccess := [] }) := by
    rw [named, Objects.specs]
    decide +kernel
  obtain ⟨runs, count, response, -, own⟩ :=
    writeResults_lineUp default accepting (sampleObjects 2) parsed resolved ⟨(), []⟩
  exact ⟨req, _, runs, rfl, count, response, own⟩

/-! ## Writes answered with an error -/

/-- The client is sent a ConfirmedError for what the handler returned. -/
def SentError (opts : MMSOptions) (invokeID : UInt32) (result : HandlerResult) : Prop :=
  ∃ errorClass errorCode,
    confirmedReply opts invokeID result = Codec.marshalConfirmedError invokeID errorClass errorCode

/-- If the Write is answered with an error then no write callback was called, whatever the
application answers. -/
def ErrorMeansUnchanged (runtime : Runtime) (objects : Objects Read Write) (opts : MMSOptions)
    (invokeID : UInt32) (body : Octets) : Prop :=
  ∀ (σ : Type) (app : Application σ Read Write) (state : σ),
    SentError opts invokeID (handleWrite runtime app objects body ⟨state, []⟩).1 →
    ∀ event ∈ (handleWrite runtime app objects body ⟨state, []⟩).2.calls, event.isWrite = false

/-- The application can answer so that the write callback of the member is called. -/
def Writable (objects : Objects Read Write) (item : VariableSpecWire × Option DataValue) : Prop :=
  ∃ entry writeFn sent, Target objects item entry writeFn sent ∧
    (item.1.alternateAccess = [] ∨ (∃ readFn, entry.readFunc.readFn = some readFn) ∧
      ∃ current, applyAlternateAccessWrite current (extractTypeSpec entry.typeSpec)
        item.1.alternateAccess sent ≠ .nil)

/-- The octets of a Write response in which `count` members have failed. -/
def failedResponseSize (invokeID : UInt32) (count : Nat) : Nat :=
  Codec.responseSize (Berutil.encodeInt (Int64.ofNat invokeID.toNat)).length
    (Codec.tagSize tagNumWrite) (3 * count)

section Sizes

/-- A result with a code of one octet, if it is a failure. -/
def WriteResult.Coded (result : WriteResult) : Prop :=
  result.success = false → IsAccessCode result.code

variable {result : WriteResult}

theorem WritePass.coded {objects : Objects Read Write} {item : VariableSpecWire × Option DataValue}
    {trace : List (CallbackEvent Read Write)} (pass : WritePass objects item result trace) :
    WriteResult.Coded result := by
  have answered (outcome : Except CallbackError Unit) :
      WriteResult.Coded (writeOutcome outcome) := by
    cases outcome with
    | error err => exact fun _ => isAccessCode_callbackErrCode err
    | ok done => exact fun failed => nomatch failed
  cases pass with
  | silent valid => exact fun _ => valid
  | unreadable | unpatchable => exact fun _ => ⟨by decide, by decide⟩
  | whole outcome target plain => exact answered outcome
  | patched outcome target selects reader accepted => exact answered outcome

theorem length_encodeWriteResult_failure (failed : result.success = false)
    (coded : IsAccessCode result.code) : (encodeWriteResult result).length = 3 := by
  have minimal := Berutil.isMinimal_encodeInt result.code
  have same : Octets.twosValue (Berutil.encodeInt result.code) =
      (result.code.toInt.toNat : Int) := by
    rw [Berutil.twosValue_encodeInt, Int.toNat_of_nonneg coded.1]
  have short := (minimal.length_le_iff same 0).mpr (by have := coded.2; omega)
  have filled := List.length_pos_of_ne_nil minimal.1
  have one : (encodeSmallInt result.code).length = 1 := by
    rw [encodeSmallInt]
    omega
  rw [encodeWriteResult, failed, if_neg (by simp), Berutil.length_encodeTLV, one]
  decide

theorem length_encodeWriteResult_le (coded : WriteResult.Coded result) :
    (encodeWriteResult result).length ≤ 3 := by
  cases outcome : result.success with
  | false => exact (length_encodeWriteResult_failure outcome (coded outcome)).le
  | true =>
    rw [encodeWriteResult, outcome, if_pos rfl]
    decide

variable {results : List WriteResult}

theorem length_marshalWriteResponse_le (coded : ∀ result ∈ results, WriteResult.Coded result) :
    (marshalWriteResponse results).length ≤ 3 * results.length := by
  have total := List.sum_le_card_nsmul (results.map fun result => (encodeWriteResult result).length)
    3 (List.forall_mem_map.mpr fun result member =>
      length_encodeWriteResult_le (coded result member))
  rw [List.length_map, smul_eq_mul, Nat.mul_comm] at total
  rwa [marshalWriteResponse, List.length_flatMap]

theorem length_marshalWriteResponse_failures
    (coded : ∀ result ∈ results, result.success = false ∧ IsAccessCode result.code) :
    (marshalWriteResponse results).length = 3 * results.length := by
  have total := List.sum_eq_card_nsmul (results.map fun result => (encodeWriteResult result).length)
    3 (List.forall_mem_map.mpr fun result member =>
      length_encodeWriteResult_failure (coded result member).1 (coded result member).2)
  rw [List.length_map, smul_eq_mul, Nat.mul_comm] at total
  rwa [marshalWriteResponse, List.length_flatMap]

/-- A response is sent as an error exactly if it exceeds the negotiated size. -/
theorem sentError_response_iff (opts : MMSOptions) (invokeID : UInt32) (payload : Octets) :
    SentError opts invokeID (.response tagNumWrite true payload) ↔
      opts.exceededBy
        (Codec.marshalConfirmedResponse invokeID tagNumWrite true payload) = true := by
  unfold SentError confirmedReply
  simp only
  constructor
  · rintro ⟨errorClass, errorCode, same⟩
    by_contra fits
    rw [if_neg fits] at same
    have leads := congrArg List.head? same
    simp [Codec.marshalConfirmedResponse, Codec.marshalConfirmedError, Codec.wrapConstructed,
      Codec.wrapContextTag] at leads
    exact absurd leads (by decide)
  · intro exceeded
    exact ⟨3, 0, if_pos exceeded⟩

end Sizes

section Refusal

variable {runtime : Runtime} {objects : Objects Read Write} {opts : MMSOptions}
  {invokeID : UInt32} {body : Octets} {req : WriteRequestWire} {specs : List VariableSpecWire}

variable {item : VariableSpecWire × Option DataValue}

variable {result : WriteResult} {trace : List (CallbackEvent Read Write)}

/-- Only a writable member has its write callback called. -/
theorem WritePass.writable (pass : WritePass objects item result trace)
    {event : CallbackEvent Read Write} (member : event ∈ trace) (writes : event.isWrite = true) :
    Writable objects item := by
  cases pass with
  | silent valid => cases member
  | unreadable | unpatchable =>
    cases List.mem_singleton.mp member
    cases writes
  | whole outcome target plain => exact ⟨_, _, _, target, .inl plain⟩
  | patched outcome target selects reader accepted =>
    exact ⟨_, _, _, target, .inr ⟨⟨_, reader⟩, _, accepted⟩⟩

/-- An application whose reads all return one value and whose writes all fail. -/
def failing (current : Value) : Application Unit Read Write where
  read _ state := (.ok current, state)
  write _ _ state := (.error .other, state)

theorem Performs.fails {current : Value}
    (performs : Performs (failing current) objects item result trace) :
    result.success = false ∧ IsAccessCode result.code := by
  obtain ⟨pass, answered⟩ := performs
  have failed : result.success = false := by
    by_contra succeeded
    obtain ⟨fn, val, member⟩ := pass.linesUp.success.mp (by simpa using succeeded)
    obtain ⟨state, answer⟩ := answered _ member
    cases answer
  exact ⟨failed, pass.coded failed⟩

/-- With the right value read, the callback of a writable member is called. -/
theorem Writable.writes (writable : Writable objects item) :
    ∃ current, ∀ world : World Unit (CallbackEvent Read Write), ∀ trace,
      (writeVariable (failing current) objects item world).2.calls = world.calls ++ trace →
      ∃ event ∈ trace, event.isWrite = true := by
  obtain ⟨entry, writeFn, sent, ⟨found, callback, data, valued, converted⟩, access⟩ := writable
  by_cases plain : item.1.alternateAccess = []
  · refine ⟨.nil, fun world trace calls => ?_⟩
    have none : ¬ item.1.alternateAccess.length > 0 := by simp [plain]
    simp only [writeVariable, valued, found, callback, converted, none, if_false, callWrite,
      World.call, failing, List.append_cancel_left_eq] at calls
    exact ⟨_, calls ▸ List.mem_singleton_self _, rfl⟩
  · obtain ⟨⟨readFn, reader⟩, current, accepted⟩ := access.resolve_left plain
    refine ⟨current, fun world trace calls => ?_⟩
    have some : item.1.alternateAccess.length > 0 := List.length_pos_of_ne_nil plain
    simp only [writeVariable, valued, found, callback, converted, some, if_true, patchWrite,
      reader, World.call, failing] at calls
    simp only [callWrite, World.call, List.append_assoc, List.append_cancel_left_eq] at calls
    subst calls
    exact ⟨_, List.mem_cons_of_mem _ (List.mem_singleton_self _), rfl⟩

/-- A Write that is not decoded or not resolved calls nothing. -/
theorem handleWrite_calls_of_refused {σ : Type} {app : Application σ Read Write}
    (refused : ∀ req specs, unmarshalWriteRequestParsed runtime body = .ok req →
      objects.specs req.listName req.vars ≠ some specs)
    (world : World σ (CallbackEvent Read Write)) :
    (handleWrite runtime app objects body world).2.calls = world.calls := by
  unfold handleWrite
  split
  · rfl
  rename_i req parsed
  split
  · rfl
  · next specs resolved => exact (refused req specs parsed resolved).elim

section Usable

variable (usable : 128 ≤ opts.maxPDUSize.toInt)

include usable

theorem sentError_iff_of_length (results : List WriteResult) :
    SentError opts invokeID (.response tagNumWrite true (marshalWriteResponse results)) ↔
      opts.maxPDUSize.toInt < (Codec.responseSize
        (Berutil.encodeInt (Int64.ofNat invokeID.toNat)).length (Codec.tagSize tagNumWrite)
        (marshalWriteResponse results).length : Int) := by
  have fits : opts.exceededBy (Codec.marshalConfirmedResponse invokeID tagNumWrite true
      (marshalWriteResponse results)) = false ↔ _ := exceededBy_eq_false_iff (by omega)
  rw [Codec.length_marshalConfirmedResponse] at fits
  rw [sentError_response_iff, ← Bool.not_eq_false, fits, Int.not_le]

variable {results : List WriteResult}

/-- A list short enough for a response in which every member failed gets its response. -/
theorem not_sentError_of_fits (coded : ∀ result ∈ results, WriteResult.Coded result)
    (fits : (failedResponseSize invokeID results.length : Int) ≤ opts.maxPDUSize.toInt) :
    ¬ SentError opts invokeID (.response tagNumWrite true (marshalWriteResponse results)) := by
  rw [sentError_iff_of_length usable, Int.not_lt]
  refine le_trans (Int.ofNat_le.mpr ?_) fits
  exact Codec.responseSize_mono _ _ (length_marshalWriteResponse_le coded)

theorem sentError_of_failures
    (failed : ∀ result ∈ results, result.success = false ∧ IsAccessCode result.code)
    (exceeds : opts.maxPDUSize.toInt < (failedResponseSize invokeID results.length : Int)) :
    SentError opts invokeID (.response tagNumWrite true (marshalWriteResponse results)) := by
  rw [sentError_iff_of_length usable, length_marshalWriteResponse_failures failed]
  exact exceeds

theorem errorMeansUnchanged_of_fits
    (meets : ∀ req specs, unmarshalWriteRequestParsed runtime body = .ok req →
      objects.specs req.listName req.vars = some specs →
      (∀ item ∈ members specs req.values, ¬ Writable objects item) ∨
        (failedResponseSize invokeID specs.length : Int) ≤ opts.maxPDUSize.toInt) :
    ErrorMeansUnchanged runtime objects opts invokeID body := by
  intro σ app state sent event called
  by_cases refused : ∀ req specs, unmarshalWriteRequestParsed runtime body = .ok req →
      objects.specs req.listName req.vars ≠ some specs
  · rw [handleWrite_calls_of_refused refused] at called
    cases called
  push Not at refused
  obtain ⟨req, specs, parsed, resolved⟩ := refused
  obtain ⟨runs, response, calls, passes⟩ := handleWrite_traced runtime app objects
    (Performs app objects) writeVariable_pass parsed resolved ⟨state, []⟩
  rcases meets req specs parsed resolved with still | fits
  · -- no member's callback can be reached
    rw [calls, List.nil_append, List.mem_flatMap] at called
    obtain ⟨run, member, own⟩ := called
    obtain ⟨item, among, performs⟩ := exists_of_forall₂_right passes member
    by_contra writes
    exact still item among (performs.1.writable own (by simpa using writes))
  · -- the response goes out as it is
    rw [response] at sent
    refine absurd sent (not_sentError_of_fits usable ?_ ?_)
    · intro result member
      obtain ⟨run, among, rfl⟩ := List.mem_map.mp member
      obtain ⟨item, -, performs⟩ := exists_of_forall₂_right passes among
      exact performs.1.coded
    · rwa [List.length_map, ← passes.length_eq, length_members]

/-- A member can be written and the response of a Write that fails for every member is too long:
then the application can fail every write, and the client is sent an error after the calls. -/
theorem fits_of_errorMeansUnchanged
    (unchanged : ErrorMeansUnchanged runtime objects opts invokeID body)
    (parsed : unmarshalWriteRequestParsed runtime body = .ok req)
    (resolved : objects.specs req.listName req.vars = some specs)
    (member : item ∈ members specs req.values) (writable : Writable objects item) :
    (failedResponseSize invokeID specs.length : Int) ≤ opts.maxPDUSize.toInt := by
  by_contra exceeds
  obtain ⟨current, writes⟩ := writable.writes
  obtain ⟨runs, response, calls, passes⟩ := handleWrite_traced runtime (failing current) objects
    (fun other result trace => Performs (failing current) objects other result trace ∧
      (other = item → ∃ event ∈ trace, event.isWrite = true))
    (fun other world => by
      obtain ⟨trace, logged, performs⟩ := writeVariable_pass other world
      refine ⟨trace, logged, performs, ?_⟩
      rintro rfl
      exact writes world trace logged)
    parsed resolved ⟨(), []⟩
  obtain ⟨run, among, -, reached⟩ := exists_of_forall₂_left passes member
  obtain ⟨event, own, isWrite⟩ := reached rfl
  have sent : SentError opts invokeID (handleWrite runtime (failing current) objects body
      ⟨(), []⟩).1 := by
    rw [response]
    refine sentError_of_failures usable ?_ ?_
    · intro result result_mem
      obtain ⟨other, other_mem, rfl⟩ := List.mem_map.mp result_mem
      obtain ⟨_, -, performs, -⟩ := exists_of_forall₂_right passes other_mem
      exact performs.fails
    · rw [List.length_map, ← passes.length_eq, length_members]
      exact not_le.mp exceeds
  have called : event ∈ (handleWrite runtime (failing current) objects body ⟨(), []⟩).2.calls := by
    rw [calls]
    exact List.mem_append_right _ (List.mem_flatMap.mpr ⟨run, among, own⟩)
  have contradiction := unchanged Unit (failing current) () sent event called
  exact absurd (isWrite.symm.trans contradiction) (by decide)

end Usable

end Refusal

/-- A Write answered with an error changed nothing if and only if no member can be written or the
response fits even if every member fails. -/
theorem writeError_unchanged_iff (runtime : Runtime) (objects : Objects Read Write)
    {opts : MMSOptions} (usable : 128 ≤ opts.maxPDUSize.toInt) (invokeID : UInt32)
    (body : Octets) :
    ErrorMeansUnchanged runtime objects opts invokeID body ↔
      ∀ req specs, unmarshalWriteRequestParsed runtime body = .ok req →
        objects.specs req.listName req.vars = some specs →
        (∀ item ∈ members specs req.values, ¬ Writable objects item) ∨
          (failedResponseSize invokeID specs.length : Int) ≤ opts.maxPDUSize.toInt := by
  constructor
  · intro unchanged req specs parsed resolved
    by_cases still : ∀ item ∈ members specs req.values, ¬ Writable objects item
    · exact .inl still
    · push Not at still
      obtain ⟨item, member, writable⟩ := still
      exact .inr (fits_of_errorMeansUnchanged usable unchanged parsed resolved member writable)
  · exact errorMeansUnchanged_of_fits usable

/-- A PDU size of 1000 octets leaves room for a list of 41 members. -/
theorem writeError_unchanged_iff_large :
    ErrorMeansUnchanged default (sampleObjects 41) ⟨1000⟩ 1 sampleWriteBody := by
  refine (writeError_unchanged_iff default (sampleObjects 41) (by decide) 1 _).mpr ?_
  intro req specs parsed resolved
  obtain ⟨other, parsed', named⟩ := parsed_sampleWriteBody
  cases parsed.symm.trans parsed'
  rw [named, Objects.specs] at resolved
  have count : (resolveNVLMembers (sampleObjects 41).connection (sampleObjects 41).registry
      { scope := 0, itemID := [0x4c] }).map List.length = some 41 := by
    decide +kernel
  rw [resolved] at count
  rw [Option.some.inj count]
  exact .inr (by decide +kernel)

/-- With 128 octets the value is written to the first member and the client is sent an error. -/
theorem writeError_after_write :
    ¬ ErrorMeansUnchanged default (sampleObjects 41) ⟨128⟩ 1 sampleWriteBody := by
  intro unchanged
  have sent : confirmedReply ⟨128⟩ 1
      (handleWrite default accepting (sampleObjects 41) sampleWriteBody ⟨(), []⟩).1 =
        Codec.marshalConfirmedError 1 3 0 := by
    decide +kernel
  have wrote : (handleWrite default accepting (sampleObjects 41) sampleWriteBody
      ⟨(), []⟩).2.calls.any CallbackEvent.isWrite = true := by
    decide +kernel
  obtain ⟨event, called, writes⟩ := List.any_eq_true.mp wrote
  have still := unchanged Unit accepting () ⟨3, 0, sent⟩ event called
  exact absurd (writes.symm.trans still) (by decide)

end GoMms.Server
