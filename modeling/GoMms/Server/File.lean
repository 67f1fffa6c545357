import GoMms.Foundation.Ledger
import GoMms.Pdu.File
import GoMms.Server.Budget
import GoMms.Server.NamedVarList

/-!
# Open files of a connection

`server_file.go`: FileOpen, FileRead and FileClose over a provider of files, and the table of the
files a connection has open. The provider is any reaction to the calls made to it, with a state of
its own. What happens to its handles is logged, oldest first: an opened handle is acquired, a read
touches it, a close releases it, whatever the provider answers to either; a note says that an open
failed or that the table allocated an ID.
-/

namespace GoMms.Server

open Berutil Pdu Serverconn Tracing Ledger

/-! ## Providers -/

structure FileAttributes where
  size : Int64
  lastModified : Instant
  deriving DecidableEq

/-- The errors of a provider that `fileError` tells apart. -/
inductive ProviderError where
  | notExist
  | permission
  | accessDenied
  | other
  deriving DecidableEq, Repr

def fileErrClassFile : Int64 := 11
def fileErrOther : Int64 := 0
def fileErrPositionInvalid : Int64 := 5
def fileErrFileAccessDenied : Int64 := 6
def fileErrFileNonExistent : Int64 := 7

def fileError : ProviderError → HandlerResult
  | .notExist => .serviceError fileErrClassFile fileErrFileNonExistent
  | .permission | .accessDenied => .serviceError fileErrClassFile fileErrFileAccessDenied
  | .other => .serviceError fileErrClassFile fileErrOther

def errServiceUnsupported : HandlerResult := .serviceError 0 4

/-- The methods of a `FileProvider` that open files use. -/
structure FileProvider (State Handle : Type) where
  openFile : Octets → State → Except ProviderError (Handle × FileAttributes) × State
  read : Handle → Int64 → State → Except ProviderError (Octets × Bool) × State
  close : Handle → State → Except ProviderError Unit × State

/-- What is logged beside the uses of handles. -/
inductive FileNote (Handle : Type) where
  | openFailed
  | allocated (id : Int32) (handle : Handle)
  deriving DecidableEq, Repr

/-- The provider's state and the log. -/
abbrev FileWorld (State Handle : Type) := World State (Use Handle (FileNote Handle))

variable {State Handle : Type}

namespace FileProvider

def openCall (provider : FileProvider State Handle) (path : Octets)
    (world : FileWorld State Handle) :
    Except ProviderError (Handle × FileAttributes) × FileWorld State Handle :=
  world.call (provider.openFile path) fun
    | .ok (handle, _) => .acquire handle
    | .error _ => .note .openFailed

def readCall (provider : FileProvider State Handle) (handle : Handle) (maxBytes : Int64)
    (world : FileWorld State Handle) :
    Except ProviderError (Octets × Bool) × FileWorld State Handle :=
  world.call (provider.read handle maxBytes) fun _ => .touch handle

def closeCall (provider : FileProvider State Handle) (handle : Handle)
    (world : FileWorld State Handle) : Except ProviderError Unit × FileWorld State Handle :=
  world.call (provider.close handle) fun _ => .release handle

end FileProvider

/-! ## The table -/

/-- An open file. -/
structure Frsm (Handle : Type) where
  id : Int32
  handle : Handle
  path : Octets
  deriving DecidableEq, Repr

structure FrsmTable (Handle : Type) where
  entries : AList fun _ : Int32 => Frsm Handle := ∅
  nextID : Int32 := 0

namespace FrsmTable

def alloc (table : FrsmTable Handle) (path : Octets) (handle : Handle) :
    Int32 × FrsmTable Handle :=
  let id := table.nextID + 1
  (id, { entries := table.entries.insert id ⟨id, handle, path⟩, nextID := id })

def get (table : FrsmTable Handle) (id : Int32) : Option (Frsm Handle) := table.entries.lookup id

def remove (table : FrsmTable Handle) (id : Int32) : Option (Frsm Handle) × FrsmTable Handle :=
  match table.entries.lookup id with
  | none => (none, table)
  | some frsm => (some frsm, { table with entries := table.entries.erase id })

/-- The open files of the table. -/
def frsms (table : FrsmTable Handle) : List (Frsm Handle) := table.entries.entries.map Sigma.snd

end FrsmTable

/-! ## Handlers -/

/-- What the handlers read of the server and of the connection: its provider, the layout of file
times and the PDU size negotiated. -/
structure FileService (State Handle : Type) where
  provider : Option (FileProvider State Handle)
  layout : TimeLayout
  maxPDU : Int64

/-- The world and the table of the connection; there is none if the context names no
connection. -/
structure FileState (State Handle : Type) where
  world : FileWorld State Handle
  table : Option (FrsmTable Handle)

def positionInvalid : HandlerResult := .serviceError fileErrClassFile fileErrPositionInvalid

/-- The loop of `skipFileBytes`; `none` is a nil error. -/
def skipLoop (provider : FileProvider State Handle) (handle : Handle) (n : Int)
    (world : FileWorld State Handle) : Option HandlerResult × FileWorld State Handle :=
  if 0 < n then
    match provider.readCall handle (Int64.ofInt (min n (64 * 1024))) world with
    | (.error error, world) => (some (fileError error), world)
    | (.ok (data, more), world) =>
      if 0 < n - data.length ∧ (¬more ∨ data = []) then (some positionInvalid, world)
      else skipLoop provider handle (n - data.length) world
  else (none, world)
termination_by n.toNat
decreasing_by
  rename_i positive _ proceeds
  have progress : data.length = 0 → ¬0 < n - data.length :=
    fun none remaining => proceeds ⟨remaining, .inr (List.length_eq_zero_iff.mp none)⟩
  omega

def skipFileBytes (provider : FileProvider State Handle) (handle : Handle) (n size : Int)
    (world : FileWorld State Handle) : Option HandlerResult × FileWorld State Handle :=
  if n > size then (some positionInvalid, world) else skipLoop provider handle n world

/-- The part of `handleFileOpen` that advances a new handle to the initial position. -/
def skipToPosition (provider : FileProvider State Handle) (handle : Handle) (req : FileOpenRequest)
    (attrs : FileAttributes) (world : FileWorld State Handle) :
    Option HandlerResult × FileWorld State Handle :=
  if req.initialPosition > 0 then
    skipFileBytes provider handle req.initialPosition.toNat attrs.size.toInt world
  else (none, world)

/-- The part of `handleFileOpen` after the handle is in position. -/
def enterFile (layout : TimeLayout) (provider : FileProvider State Handle) (handle : Handle)
    (path : Octets) (attrs : FileAttributes) (state : FileState State Handle) :
    HandlerResult × FileState State Handle :=
  match state.table with
  | none =>
    (.failure "no server connection in context",
      { state with world := (provider.closeCall handle state.world).2 })
  | some table =>
    let (frsmID, table) := table.alloc path handle
    let state : FileState State Handle :=
      { world := { state.world with
          calls := state.world.calls ++ [.note (.allocated frsmID handle)] }
        table := some table }
    match marshalFileOpenResponse layout frsmID attrs.size attrs.lastModified with
    | .error text => (.failure ("marshal file-open response: " ++ text), state)
    | .ok payload => (.response tagNumFileOpen true payload, state)

def handleFileOpen (service : FileService State Handle) (body : Octets)
    (state : FileState State Handle) : HandlerResult × FileState State Handle :=
  match service.provider with
  | none => (errServiceUnsupported, state)
  | some provider =>
    match unmarshalFileOpenRequest body with
    | .error _ => (errInvalidRequest, state)
    | .ok req =>
      match provider.openCall req.fileName state.world with
      | (.error error, world) => (fileError error, { state with world := world })
      | (.ok (handle, attrs), world) =>
        match skipToPosition provider handle req attrs world with
        | (some error, world) =>
          (error, { state with world := (provider.closeCall handle world).2 })
        | (none, world) =>
          enterFile service.layout provider handle req.fileName attrs { state with world := world }

def handleFileRead (service : FileService State Handle) (body : Octets)
    (state : FileState State Handle) : HandlerResult × FileState State Handle :=
  match service.provider with
  | none => (errServiceUnsupported, state)
  | some provider =>
    match unmarshalFileReadRequest body with
    | .error _ => (errInvalidRequest, state)
    | .ok frsmID =>
      match state.table with
      | none => (.failure "no server connection in context", state)
      | some table =>
        match table.get frsmID with
        | none => (.serviceError fileErrClassFile fileErrOther, state)
        | some frsm =>
          match provider.readCall frsm.handle (responseBudget service.maxPDU - 8) state.world with
          | (.error error, world) => (fileError error, { state with world := world })
          | (.ok (data, moreFollows), world) =>
            (.response tagNumFileRead true (marshalFileReadResponse data moreFollows),
              { state with world := world })

def handleFileClose (service : FileService State Handle) (body : Octets)
    (state : FileState State Handle) : HandlerResult × FileState State Handle :=
  match service.provider with
  | none => (errServiceUnsupported, state)
  | some provider =>
    match unmarshalFileCloseRequest body with
    | .error _ => (errInvalidRequest, state)
    | .ok frsmID =>
      match state.table with
      | none => (.failure "no server connection in context", state)
      | some table =>
        match table.remove frsmID with
        | (none, _) => (.serviceError fileErrClassFile fileErrOther, state)
        | (some frsm, table) =>
          match provider.closeCall frsm.handle state.world with
          | (.error error, world) => (fileError error, ⟨world, some table⟩)
          | (.ok (), world) => (.response tagNumFileClose false [], ⟨world, some table⟩)

/-- `closeAll`, which ranges over a map: it may meet the files of the table in any order. The
table of a closed connection is not used again. -/
def closeAll (provider : FileProvider State Handle) (order : List (Frsm Handle))
    (world : FileWorld State Handle) : FileWorld State Handle :=
  order.foldl (fun world frsm => (provider.closeCall frsm.handle world).2) world

/-! ## Runs -/

/-- A request of the three services. -/
inductive FileRequest where
  | fileOpen (body : Octets)
  | fileRead (body : Octets)
  | fileClose (body : Octets)
  deriving DecidableEq, Repr

def FileService.handle (service : FileService State Handle) (state : FileState State Handle) :
    FileRequest → HandlerResult × FileState State Handle
  | .fileOpen body => handleFileOpen service body state
  | .fileRead body => handleFileRead service body state
  | .fileClose body => handleFileClose service body state

/-- The requests one after another. -/
def FileService.run (service : FileService State Handle) (state : FileState State Handle)
    (requests : List FileRequest) : FileState State Handle :=
  requests.foldl (fun state request => (service.handle state request).2) state

/-- A new connection. -/
def FileState.new (state : State) : FileState State Handle := ⟨⟨state, []⟩, some {}⟩

end GoMms.Server
