import GoMms.Foundation.Machine
import GoMms.Foundation.Octets
import Mathlib.Data.List.AList

/-!
# The invoke tracker

`internal/invoke`: the tracker correlates responses with waiting callers. Its methods change
the tracker under a mutex and send on response channels after unlocking, so a run interleaves
the locked sections of concurrent calls with their sends. The maps and channels of Go appear as
finite maps and as numbered channels in creation order.
-/

namespace GoMms.Invoke

structure Response where
  invokeID : UInt32
  kind : Int64
  data : Octets
  err : Option String
  deriving DecidableEq

/-- The tracker, with channels named by their number. -/
structure Tracker where
  nextID : UInt32
  pending : AList fun _ : UInt32 => Nat
  maxPending : Int64

def newTracker (maxPending : Int64) : Tracker where
  nextID := 0
  pending := ∅
  maxPending := maxPending

/-! ## Locked sections -/

/-- `NextID`: count up, skipping zero when the counter wraps. -/
def nextID (tracker : Tracker) : UInt32 × Tracker :=
  let next := tracker.nextID + 1
  let next := if next = 0 then 1 else next
  (next, { tracker with nextID := next })

def limitReached (tracker : Tracker) : Prop :=
  tracker.maxPending.toInt > 0 ∧ tracker.pending.keys.length ≥ tracker.maxPending.toInt

instance (tracker : Tracker) : Decidable (limitReached tracker) :=
  inferInstanceAs (Decidable (_ ∧ _))

/-- `Allocate`, which registers `channel` under the next ID whether or not it is pending. -/
def allocate (tracker : Tracker) (channel : Nat) : Except String (UInt32 × Tracker) :=
  if limitReached tracker then
    .error ("invoke: outstanding call limit reached (" ++ toString tracker.maxPending ++ ")")
  else
    let (id, tracker) := nextID tracker
    .ok (id, { tracker with pending := tracker.pending.insert id channel })

def allocateWithID (tracker : Tracker) (id : UInt32) (channel : Nat) : Except String Tracker :=
  if limitReached tracker then
    .error ("invoke: outstanding call limit reached (" ++ toString tracker.maxPending ++ ")")
  else if id ∈ tracker.pending then
    .error ("invoke: ID " ++ toString id ++ " already pending")
  else .ok { tracker with pending := tracker.pending.insert id channel }

/-- The locked section of `Complete`: the channel taken out of `pending`, if there is one. -/
def takeOne (tracker : Tracker) (id : UInt32) : Option Nat × Tracker :=
  match tracker.pending.lookup id with
  | none => (none, tracker)
  | some channel => (some channel, { tracker with pending := tracker.pending.erase id })

/-- The locked section of `CancelAll`: everything pending. -/
def takeAll (tracker : Tracker) : List (Sigma fun _ : UInt32 => Nat) × Tracker :=
  (tracker.pending.entries, { tracker with pending := ∅ })

/-! ## Interleavings -/

/-- A response channel: the ID it was registered under, what it holds, and everything ever
sent on it. -/
structure Channel where
  id : UInt32
  buffer : List Response
  sent : List Response

/-- `make(chan Response, 1)`. -/
def capacity : Nat := 1

/-- A send a call owes to an entry it took out of `pending`. -/
structure Send where
  call : Nat
  id : UInt32
  channel : Nat
  response : Response
  done : Bool

/-- The tracker, the channels it handed out, the sends of the calls that removed entries, what
each such call returns, and the IDs issued by `NextID` and used by `AllocateWithID`. -/
structure System where
  tracker : Tracker
  channels : List Channel
  sends : List Send
  calls : List (Option Bool)
  issued : List UInt32
  used : List UInt32

def System.new (maxPending : Int64) : System where
  tracker := newTracker maxPending
  channels := []
  sends := []
  calls := []
  issued := []
  used := []

/-- A locked section, one send after unlocking, or a receive by the caller who waits. -/
inductive Event where
  | nextID
  | allocate
  | allocateWithID (id : UInt32)
  | complete (id : UInt32) (response : Response)
  | cancel (id : UInt32) (err : Option String)
  | cancelAll (err : Option String)
  | send (index : Nat)
  | receive (channel : Nat)

def register (system : System) (id : UInt32) (tracker : Tracker) : System :=
  { system with
    tracker := tracker
    channels := system.channels ++ [⟨id, [], []⟩] }

/-- The locked section of `Complete`; the response it will send carries the ID. -/
def completeLocked (system : System) (id : UInt32) (response : Response) : System :=
  match takeOne system.tracker id with
  | (none, _) => { system with calls := system.calls ++ [some false] }
  | (some channel, tracker) =>
    { system with
      tracker := tracker
      sends := system.sends ++
        [⟨system.calls.length, id, channel, { response with invokeID := id }, false⟩]
      calls := system.calls ++ [some true] }

def cancelAllLocked (system : System) (err : Option String) : System :=
  let (entries, tracker) := takeAll system.tracker
  { system with
    tracker := tracker
    sends := system.sends ++ entries.map fun entry =>
      ⟨system.calls.length, entry.1, entry.2, ⟨entry.1, 0, [], err⟩, false⟩
    calls := system.calls ++ [none] }

/-- One send. It is not enabled while the channel is full: the call blocks. -/
def deliver (system : System) (index : Nat) : Option System := do
  let send ← system.sends[index]?
  let channel ← system.channels[send.channel]?
  if !send.done ∧ channel.buffer.length < capacity then
    some
      { system with
        sends := system.sends.set index { send with done := true }
        channels := system.channels.set send.channel
          { channel with
            buffer := channel.buffer ++ [send.response]
            sent := channel.sent ++ [send.response] } }
  else none

def receive (system : System) (index : Nat) : Option System := do
  let channel ← system.channels[index]?
  match channel.buffer with
  | [] => none
  | _ :: rest =>
    some { system with channels := system.channels.set index { channel with buffer := rest } }

def step (system : System) : Event → Option System
  | .nextID =>
    let (id, tracker) := nextID system.tracker
    some { system with tracker := tracker, issued := system.issued ++ [id] }
  | .allocate =>
    match allocate system.tracker system.channels.length with
    | .error _ => some system
    | .ok (id, tracker) => some (register system id tracker)
  | .allocateWithID id =>
    let system := { system with used := system.used ++ [id] }
    match allocateWithID system.tracker id system.channels.length with
    | .error _ => some system
    | .ok tracker => some (register system id tracker)
  | .complete id response => some (completeLocked system id response)
  | .cancel id err => some (completeLocked system id ⟨0, 0, [], err⟩)
  | .cancelAll err => some (cancelAllLocked system err)
  | .send index => deliver system index
  | .receive channel => receive system channel

end GoMms.Invoke
