import GoMms.Mms.AlternateAccess
import GoMms.Pdu.Results
import GoMms.Server.NamedVarList

/-!
# Read and Write

`handleRead` and `handleWrite` of `server.go`. The callbacks of the variables belong to the
application: it answers a call from its own state and may change that state. Calls are logged, so
that what a request did can be read off the log.
-/

namespace GoMms.Server

open Mms Pdu Serverconn Servermodel Tracing

/-! ## Callbacks -/

/-- What a server variable stores in a field of dynamic type: a type specification or a pointer to
one, a callback, which may be nil, or anything else. -/
inductive Dynamic (Read Write : Type) where
  | typeSpec (spec : TypeSpec)
  | typeSpecPointer (spec : Option TypeSpec)
  | readFunc (fn : Option Read)
  | writeFunc (fn : Option Write)
  | other

variable {Read Write : Type}

def extractTypeSpec : Dynamic Read Write → Option TypeSpec
  | .typeSpec spec => some spec
  | .typeSpecPointer spec => spec
  | _ => none

/-- The type assertion to a read callback that is not nil. -/
def Dynamic.readFn : Dynamic Read Write → Option Read
  | .readFunc fn => fn
  | _ => none

/-- The type assertion to a write callback that is not nil. -/
def Dynamic.writeFn : Dynamic Read Write → Option Write
  | .writeFunc fn => fn
  | _ => none

/-- An error of a callback: it wraps a `*DataAccessError` or it does not. -/
inductive CallbackError where
  | dataAccess (code : Int64)
  | other
  deriving DecidableEq, Repr

/-- How the application answers a callback in each of its states. -/
structure Application (σ Read Write : Type) where
  read : Read → σ → Except CallbackError Value × σ
  write : Write → Value → σ → Except CallbackError Unit × σ

/-- A call of a callback, with its outcome. -/
inductive CallbackEvent (Read Write : Type) where
  | read (fn : Read) (outcome : Except CallbackError Value)
  | write (fn : Write) (val : Value) (outcome : Except CallbackError Unit)

def CallbackEvent.isWrite : CallbackEvent Read Write → Bool
  | .read _ _ => false
  | .write _ _ _ => true

@[simp] theorem CallbackEvent.isWrite_read (fn : Read) (outcome : Except CallbackError Value) :
    (CallbackEvent.read fn outcome : CallbackEvent Read Write).isWrite = false := rfl

@[simp] theorem CallbackEvent.isWrite_write (fn : Write) (val : Value)
    (outcome : Except CallbackError Unit) :
    (CallbackEvent.write fn val outcome : CallbackEvent Read Write).isWrite = true := rfl

/-- What a request finds in the server: the registry and the objects of its connection. -/
structure Objects (Read Write : Type) where
  registry : Registry (Dynamic Read Write) (List Octets)
  connection : Option (AssociationObjects (Dynamic Read Write))

def Objects.find (objects : Objects Read Write) (name : ObjectNameWire) :
    Option (VarEntry (Dynamic Read Write)) :=
  lookupVariable objects.connection objects.registry name

/-- The variables of a request: its own, or the members of the list it names. -/
def Objects.specs (objects : Objects Read Write) (listName : Option ObjectNameWire)
    (vars : List VariableSpecWire) : Option (List VariableSpecWire) :=
  match listName with
  | some name => resolveNVLMembers objects.connection objects.registry name
  | none => some vars

/-! ## Codes -/

def wireErrTempUnavail : Int64 := 2
def wireErrAccessDenied : Int64 := 3
def wireErrObjectUndefined : Int64 := 4
def wireErrTypeInconsistent : Int64 := 7
def wireErrObjectNonExistent : Int64 := 10

def encodeDataAccessError (code : Int64) : Except String Int64 :=
  if code = -1 ∨ code < 0 ∨ code > 11 then
    .error ("mms: cannot encode DataAccessErrorCode " ++ toString code ++ " as MMS wire value")
  else .ok code

def callbackErrCode : CallbackError → Int64
  | .dataAccess code =>
    match encodeDataAccessError code with
    | .ok wire => wire
    | .error _ => wireErrTempUnavail
  | .other => wireErrTempUnavail

/-- The code is one of the `DataAccessError` codes. -/
def IsAccessCode (code : Int64) : Prop := 0 ≤ code.toInt ∧ code.toInt ≤ 11

theorem isAccessCode_callbackErrCode (err : CallbackError) :
    IsAccessCode (callbackErrCode err) := by
  cases err with
  | other => exact ⟨by decide, by decide⟩
  | dataAccess code =>
    simp only [callbackErrCode, encodeDataAccessError]
    by_cases refused : code = -1 ∨ code < 0 ∨ code > 11
    · simp only [refused, if_true]
      exact ⟨by decide, by decide⟩
    · simp only [refused, if_false]
      simp only [not_or, Int64.lt_iff_toInt_lt] at refused
      have zero : (0 : Int64).toInt = 0 := rfl
      have eleven : (11 : Int64).toInt = 11 := rfl
      exact ⟨by omega, by omega⟩

/-! ## Read -/

section Handlers

variable {σ : Type} (runtime : Runtime) (app : Application σ Read Write)
  (objects : Objects Read Write)

/-- The result of a value that was read, converted for the wire. -/
def valueResult (val : Value) : AccessResult :=
  match valueToDataValue runtime val with
  | .error _ => .error wireErrTempUnavail
  | .ok dv => .data dv

/-- The result of a read callback that returned a value. -/
def selectedResult (ts : Option TypeSpec) (selectors : List AccessSelectorWire) (val : Value) :
    AccessResult :=
  if selectors.length > 0 then
    match applyAlternateAccessRead val ts selectors with
    | .nil => .error wireErrObjectUndefined
    | selected => valueResult runtime selected
  else valueResult runtime val

/-- One pass of the loop of `handleRead`. -/
def readVariable (spec : VariableSpecWire) (world : World σ (CallbackEvent Read Write)) :
    AccessResult × World σ (CallbackEvent Read Write) :=
  match objects.find spec.name with
  | none => (.error wireErrObjectNonExistent, world)
  | some entry =>
    match entry.readFunc.readFn with
    | none => (.error wireErrAccessDenied, world)
    | some readFn =>
      match world.call (app.read readFn) (.read readFn) with
      | (.error err, world) => (.error (callbackErrCode err), world)
      | (.ok val, world) =>
        (selectedResult runtime (extractTypeSpec entry.typeSpec) spec.alternateAccess val, world)

def tagNumRead : Int64 := 4
def tagNumWrite : Int64 := 5

def handleRead (body : Octets) (world : World σ (CallbackEvent Read Write)) :
    HandlerResult × World σ (CallbackEvent Read Write) :=
  match unmarshalReadRequestParsed body with
  | .error _ => (errInvalidRequest, world)
  | .ok req =>
    match objects.specs req.listName req.vars with
    | none => (errObjectNonExistent, world)
    | some specs =>
      let (accessResults, world) := runAll (readVariable runtime app objects) specs world
      let marshalled :=
        if req.specWithResult then
          marshalReadResponseWithSpec runtime req.listName specs accessResults
        else marshalReadResponse runtime accessResults
      match marshalled with
      | .error text => (.failure ("marshal read response: " ++ text), world)
      | .ok respBytes => (.response tagNumRead true respBytes, world)

/-! ## Write -/

/-- `WriteResult{Code: code}`. -/
def writeFailure (code : Int64) : WriteResult := ⟨false, code⟩

/-- The call of the write callback that ends a pass. -/
def callWrite (writeFn : Write) (val : Value) (world : World σ (CallbackEvent Read Write)) :
    WriteResult × World σ (CallbackEvent Read Write) :=
  match world.call (app.write writeFn val) (.write writeFn val) with
  | (.error err, world) => (writeFailure (callbackErrCode err), world)
  | (.ok (), world) => (⟨true, 0⟩, world)

/-- The part of a pass for a member with selectors: read, modify, write. -/
def patchWrite (entry : VarEntry (Dynamic Read Write)) (selectors : List AccessSelectorWire)
    (writeFn : Write) (val : Value) (world : World σ (CallbackEvent Read Write)) :
    WriteResult × World σ (CallbackEvent Read Write) :=
  match entry.readFunc.readFn with
  | none => (writeFailure wireErrAccessDenied, world)
  | some readFn =>
    match world.call (app.read readFn) (.read readFn) with
    | (.error _, world) => (writeFailure wireErrTempUnavail, world)
    | (.ok currentVal, world) =>
      match applyAlternateAccessWrite currentVal (extractTypeSpec entry.typeSpec) selectors val with
      | .nil => (writeFailure wireErrTypeInconsistent, world)
      | patched => callWrite app writeFn patched world

/-- One pass of the loop of `handleWrite`: a member and its value, if there is one. -/
def writeVariable (item : VariableSpecWire × Option DataValue)
    (world : World σ (CallbackEvent Read Write)) :
    WriteResult × World σ (CallbackEvent Read Write) :=
  match item.2 with
  | none => (writeFailure wireErrTypeInconsistent, world)
  | some data =>
    match objects.find item.1.name with
    | none => (writeFailure wireErrObjectNonExistent, world)
    | some entry =>
      match entry.writeFunc.writeFn with
      | none => (writeFailure wireErrAccessDenied, world)
      | some writeFn =>
        match dataValueToValue data with
        | .error _ => (writeFailure wireErrTypeInconsistent, world)
        | .ok val =>
          if item.1.alternateAccess.length > 0 then
            patchWrite app entry item.1.alternateAccess writeFn val world
          else callWrite app writeFn val world

/-- The members with their values: member `i` has value `i` unless there are fewer values. -/
def members (specs : List VariableSpecWire) (values : List DataValue) :
    List (VariableSpecWire × Option DataValue) :=
  specs.zipIdx.map fun (spec, i) => (spec, values[i]?)

def handleWrite (body : Octets) (world : World σ (CallbackEvent Read Write)) :
    HandlerResult × World σ (CallbackEvent Read Write) :=
  match unmarshalWriteRequestParsed runtime body with
  | .error _ => (errInvalidRequest, world)
  | .ok req =>
    match objects.specs req.listName req.vars with
    | none => (errObjectNonExistent, world)
    | some specs =>
      let (results, world) := runAll (writeVariable app objects) (members specs req.values) world
      (.response tagNumWrite true (marshalWriteResponse results), world)

end Handlers

end GoMms.Server
