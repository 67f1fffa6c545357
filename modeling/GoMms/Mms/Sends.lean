import GoMms.Foundation.History
import GoMms.Foundation.Machine
import GoMms.Iso.Stack

/-!
# Concurrent sends

`Client.send` and the sends of a server connection, `SendUnconfirmed`, `sendData` and `SendAbort`.
The first two are detached from their context: a writer goroutine waits for the mutex and makes the
write, while the caller waits for it or for its context, and a compare-and-swap on the state of the
call decides between a writer that starts and a caller that gives up. The other two write
themselves. Any number of calls share the connection. An event is one atomic action of one
goroutine of one call, or the end of a context, so a run is an interleaving.

What a call does is a machine of its own with a history of its own (`act`, `Kept`); the system adds
the mutex and the one history of all calls.
-/

namespace GoMms.Sends

open History Machine

/-- The function that was called. -/
inductive Entrance where
  | send
  | sendUnconfirmed
  | sendData
  | sendAbort
  deriving DecidableEq, Repr

/-- The write is made by a goroutine of its own. -/
def Entrance.detached : Entrance → Bool
  | .send | .sendUnconfirmed => true
  | .sendData | .sendAbort => false

/-- The states of a detached call. A call that writes itself is `writing` once it holds the
mutex. -/
inductive State where
  | pending
  | writing
  | abandoned
  deriving DecidableEq, Repr

/-- The result of a call, and of `Send`: nil, the error of the call's context, another error. -/
inductive Outcome where
  | success
  | contextError
  | failure
  deriving DecidableEq, Repr

/-- Where the caller is. -/
inductive CallerPc where
  | absent
  | entered
  | waiting
  | cancelled
  | leaving
  | returned (outcome : Outcome)
  deriving DecidableEq, Repr

/-- Where the writer is; in a call that is not detached it is the caller. -/
inductive WriterPc where
  | absent
  | locking
  | holding
  | committed
  | sending
  | sent (outcome : Outcome)
  | skipped
  | delivered
  | gone
  deriving DecidableEq, Repr

structure Call where
  entrance : Entrance := .send
  data : Octets := []
  contextDone : Bool := false
  caller : CallerPc := .absent
  writer : WriterPc := .absent
  state : State := .pending
  /-- The channel `done`, or the value a call that is not detached will return. -/
  done : Option Outcome := none
  deriving DecidableEq, Repr

/-- What the call passes to the transport. The caller of `Client.send` has encoded the request. -/
def Call.frame (call : Call) : Octets :=
  match call.entrance with
  | .send => call.data
  | .sendUnconfirmed | .sendData => Isostack.encodeDataRequest call.data
  | .sendAbort => Isostack.encodeAbort

/-- What a call leaves in the history: its state becomes `writing`, `Send` is called with the data
and returns, the call returns. -/
inductive Note where
  | committed
  | started (data : Octets)
  | finished (success : Bool)
  | returned (outcome : Outcome)
  deriving DecidableEq, Repr

inductive Action where
  | call (entrance : Entrance) (data : Octets)
  | cancel
  | enter
  | lock
  | commit
  | startSend
  | finishSend (outcome : Outcome)
  | deliver
  | unlock
  | receive
  | observeCancel
  | abandon
  | returnError
  deriving DecidableEq, Repr

/-- What an action does to the mutex. -/
inductive LockUse where
  | keeps
  | acquires
  | releases
  deriving DecidableEq, Repr

/-- The call after an action, its use of the mutex and its note. -/
structure Effect where
  call : Call
  lock : LockUse := .keeps
  note : Option Note := none
  deriving DecidableEq, Repr

/-- One action of a call. -/
def act (call : Call) : Action → Option Effect
  | .call entrance data =>
    if call.caller = .absent then
      some { call := { call with entrance := entrance, data := data, caller := .entered } }
    else none
  | .cancel => some { call := { call with contextDone := true } }
  -- `SendUnconfirmed` looks at its context first
  | .enter =>
    if call.caller = .entered then
      if call.entrance = .sendUnconfirmed ∧ call.contextDone then
        some { call := { call with caller := .returned .contextError }
               note := some (.returned .contextError) }
      else some { call := { call with caller := .waiting, writer := .locking } }
    else none
  | .lock =>
    if call.writer = .locking then
      some { call := { call with writer := .holding }, lock := .acquires }
    else none
  -- `CompareAndSwap(pending, writing)`
  | .commit =>
    if call.writer = .holding then
      if call.entrance.detached ∧ call.state ≠ .pending then
        some { call := { call with writer := .skipped } }
      else
        some { call := { call with writer := .committed, state := .writing }
               note := some .committed }
    else none
  | .startSend =>
    if call.writer = .committed then
      some { call := { call with writer := .sending }, note := some (.started call.frame) }
    else none
  -- the transport may report anything, also that of a context
  | .finishSend outcome =>
    if call.writer = .sending then
      some { call := { call with writer := .sent outcome }
             note := some (.finished (outcome = .success)) }
    else none
  | .deliver =>
    if call.entrance.detached then
      match call.writer with
      | .sent outcome => some { call := { call with writer := .delivered, done := some outcome } }
      | .skipped => some { call := { call with writer := .delivered, done := some .success } }
      | _ => none
    else none
  | .unlock =>
    match call.writer with
    | .delivered => some { call := { call with writer := .gone }, lock := .releases }
    | .sent outcome =>
      if call.entrance.detached then none
      else
        some { call := { call with writer := .gone, done := some outcome }, lock := .releases }
    | _ => none
  | .receive =>
    match call.caller, call.done with
    | .waiting, some outcome =>
      some { call := { call with caller := .returned outcome, done := none }
             note := some (.returned outcome) }
    | _, _ => none
  | .observeCancel =>
    if call.caller = .waiting ∧ call.entrance.detached ∧ call.contextDone then
      some { call := { call with caller := .cancelled } }
    else none
  -- `CompareAndSwap(pending, abandoned)`
  | .abandon =>
    if call.caller = .cancelled then
      some { call := { call with
        caller := .leaving
        state := if call.state = .pending then .abandoned else call.state } }
    else none
  | .returnError =>
    if call.caller = .leaving then
      some { call := { call with caller := .returned .contextError }
             note := some (.returned .contextError) }
    else none

/-! ## One call -/

/-- The writer holds the mutex. -/
def WriterPc.holds : WriterPc → Bool
  | .holding | .committed | .sending | .sent _ | .skipped | .delivered => true
  | _ => false

/-- The writer has not come to its decision. -/
def WriterPc.early : WriterPc → Bool
  | .absent | .locking | .holding => true
  | _ => false

/-- The note is the writer's. -/
def Note.isWrite : Note → Bool
  | .returned _ => false
  | _ => true

/-- The note of a call to `Send`. -/
def Note.isStarted : Note → Bool
  | .started _ => true
  | _ => false

/-- Where a writer is, what the state and the channel of its call are then, and what it has
noted. -/
inductive Along (data : Octets) : WriterPc → State → Option Outcome → List Note → Prop
  | early {writer : WriterPc} {state : State} (before : writer.early = true)
      (undecided : state ≠ .writing) : Along data writer state none []
  | committed : Along data .committed .writing none [.committed]
  | sending : Along data .sending .writing none [.committed, .started data]
  | sent (outcome : Outcome) :
      Along data (.sent outcome) .writing none
        [.committed, .started data, .finished (outcome = .success)]
  | wrote {writer : WriterPc} {done : Option Outcome} (outcome : Outcome)
      (after : writer = .delivered ∨ writer = .gone) (result : done = none ∨ done = some outcome) :
      Along data writer .writing done [.committed, .started data, .finished (outcome = .success)]
  | skipped : Along data .skipped .abandoned none []
  | skippedAll {writer : WriterPc} {done : Option Outcome}
      (after : writer = .delivered ∨ writer = .gone)
      (result : done = none ∨ done = some .success) : Along data writer .abandoned done []

section Along

variable {data : Octets} {writer : WriterPc} {state : State} {done : Option Outcome}
  {writes : List Note}

theorem Along.of_early (along : Along data writer state done writes)
    (before : writer.early = true) : state ≠ .writing ∧ done = none ∧ writes = [] := by
  cases along with
  | early _ undecided => exact ⟨undecided, rfl, rfl⟩
  | wrote _ after | skippedAll after => rcases after with rfl | rfl <;> cases before
  | _ => cases before

/-- Between the decision and the channel everything follows from where the writer is. -/
theorem Along.determined (along : Along data writer state done writes) :
    (writer = .committed → state = .writing ∧ done = none ∧ writes = [.committed]) ∧
    (writer = .sending → state = .writing ∧ done = none ∧ writes = [.committed, .started data]) ∧
    (∀ outcome, writer = .sent outcome → state = .writing ∧
      writes = [.committed, .started data, .finished (outcome = .success)]) ∧
    (writer = .skipped → state = .abandoned ∧ writes = []) := by
  cases along with
  | early before => cases writer <;> simp_all [WriterPc.early]
  | wrote _ after | skippedAll after => rcases after with rfl | rfl <;> simp
  | _ => simp

/-- The channel may be emptied. -/
theorem Along.take (along : Along data writer state done writes) :
    Along data writer state none writes := by
  have same := along
  cases along with
  | wrote outcome after => exact .wrote outcome after (.inl rfl)
  | skippedAll after => exact .skippedAll after (.inl rfl)
  | _ => exact same

/-- Success in the channel is that of the write, unless the call was given up. -/
theorem Along.of_success (along : Along data writer state (some .success) writes) :
    state = .abandoned ∨ .started data ∈ writes ∧ .finished true ∈ writes := by
  cases along with
  | wrote outcome _ result =>
    rcases result with none | same
    · cases none
    · cases same
      exact .inr ⟨by simp, by simp⟩
  | skippedAll => exact .inl rfl

theorem Along.countP_isStarted (along : Along data writer state done writes) :
    writes.countP Note.isStarted ≤ 1 := by
  cases along <;> simp [List.countP_cons, Note.isStarted]

/-- `Send` is called with the data of the call. -/
theorem Along.data_eq (along : Along data writer state done writes) {passed : Octets}
    (started : .started passed ∈ writes) : passed = data := by
  cases along with
  | sending | sent | wrote => simpa using started
  | _ => simp at started

/-- The mutex is unlocked after the channel has been served. -/
theorem Along.unlock (along : Along data .delivered state done writes) :
    Along data .gone state done writes := by
  cases along with
  | early before => cases before
  | wrote outcome _ result => exact .wrote outcome (.inr rfl) result
  | skippedAll _ result => exact .skippedAll (.inr rfl) result

theorem Along.decided {outcome : Outcome}
    (along : Along data writer state (some outcome) writes) : state ≠ .pending := by
  cases along with
  | wrote | skippedAll => exact nofun

/-- A caller gives up while the writer has not decided. -/
theorem Along.abandon (along : Along data writer .pending done writes) :
    Along data writer .abandoned done writes := by
  cases along with
  | early before => exact .early before nofun

end Along

/-- What the history of a call and its program counters have to do with each other. -/
structure Kept (notes : List Note) (call : Call) : Prop where
  along : Along call.frame call.writer call.state call.done (notes.filter Note.isWrite)
  abandoned : call.state = .abandoned → call.entrance.detached = true ∧
    (call.caller = .leaving ∨ call.caller = .returned .contextError)
  cancelled : call.caller = .cancelled → call.entrance.detached = true
  leaving : call.caller = .leaving → call.state ≠ .pending
  entering : call.caller = .absent ∨ call.caller = .entered → call.writer = .absent
  returned : ∀ outcome, .returned outcome ∈ notes → call.caller = .returned outcome
  decided : ∀ outcome, call.caller = .returned outcome →
    call.state ≠ .pending ∨ call.writer = .absent

/-- Why a note may be left: a writer commits itself while the caller is there and calls `Send`
after that, and nil is returned for a write that has succeeded. -/
def Because (past : List Note) : Note → Prop
  | .committed => ∀ outcome, .returned outcome ∉ past
  | .started _ => .committed ∈ past
  | .finished _ => True
  | .returned .success => (∃ data, .started data ∈ past) ∧ .finished true ∈ past
  | .returned _ => True

theorem kept_initial : Kept [] {} where
  along := .early rfl nofun
  abandoned := nofun
  cancelled := nofun
  leaving := nofun
  entering _ := rfl
  returned := nofun
  decided := nofun

section Local

variable {notes : List Note} {call : Call} {effect : Effect}

variable {note : Note}

theorem mem_of_filter (write : note.isWrite = true) :
    note ∈ notes ↔ note ∈ notes.filter Note.isWrite := by
  rw [List.mem_filter, and_iff_left write]

/-- A caller that has returned is there no more when its writer is at its decision. -/
theorem Kept.not_returned (kept : Kept notes call) (holding : call.writer = .holding)
    (pending : call.state = .pending) (outcome : Outcome) : .returned outcome ∉ notes := by
  intro gone
  rcases kept.decided outcome (kept.returned outcome gone) with decided | absent
  · exact decided pending
  · rw [holding] at absent
    cases absent

/-- Only a caller that gives up abandons its call. -/
theorem Kept.not_abandoned (kept : Kept notes call) (staying : call.caller ≠ .leaving)
    (present : call.caller ≠ .returned .contextError) : call.state ≠ .abandoned := by
  intro given
  rcases (kept.abandoned given).2 with leaving | returned
  · exact staying leaving
  · exact present returned

/-- A note of the writer is added to its notes only. -/
theorem filter_append_write (write : note.isWrite = true) :
    (notes ++ [note]).filter Note.isWrite = notes.filter Note.isWrite ++ [note] := by
  rw [List.filter_append, List.filter_singleton, write, cond_true]

theorem filter_append_returned (outcome : Outcome) :
    (notes ++ [Note.returned outcome]).filter Note.isWrite = notes.filter Note.isWrite := by
  simp [List.filter_append, Note.isWrite]

variable {outcome : Outcome} {done : Option Outcome} {lock : LockUse}

theorem returned_mem_append_write (write : note.isWrite = true)
    (gone : .returned outcome ∈ notes ++ [note]) : .returned outcome ∈ notes := by
  rcases List.mem_append.mp gone with earlier | this
  · exact earlier
  · cases List.mem_singleton.mp this
    cases write

/-- The writer goes on, and may claim the call for itself. -/
theorem Kept.advance (kept : Kept notes call) (begun : call.writer ≠ .absent) {later : List Note}
    (same : ∀ outcome, .returned outcome ∈ later → .returned outcome ∈ notes) {writer : WriterPc}
    {state : State} (along : Along call.frame writer state done (later.filter Note.isWrite))
    (claimed : state = call.state ∨ state = .writing) :
    Kept later { call with writer := writer, state := state, done := done } where
  along := along
  abandoned given := by
    rcases claimed with kept_state | writing
    · exact kept.abandoned (kept_state ▸ given)
    · cases writing.symm.trans given
  cancelled := kept.cancelled
  leaving leaving pending := by
    rcases claimed with kept_state | writing
    · exact kept.leaving leaving (kept_state ▸ pending)
    · cases writing.symm.trans pending
  entering entering := absurd (kept.entering entering) begun
  returned outcome gone := kept.returned outcome (same outcome gone)
  decided outcome gone := by
    refine .inl fun pending => ?_
    rcases claimed with kept_state | writing
    · rcases kept.decided outcome gone with decided | absent
      · exact decided (kept_state ▸ pending)
      · exact begun absent
    · cases writing.symm.trans pending

/-- The caller returns, with nothing but its note and perhaps the content of the channel. -/
theorem Kept.leave (kept : Kept notes call) (present : ∀ outcome, call.caller ≠ .returned outcome)
    (along : Along call.frame call.writer call.state done (notes.filter Note.isWrite))
    (abandoned : call.state = .abandoned → call.entrance.detached = true ∧ outcome = .contextError)
    (decided : call.state ≠ .pending ∨ call.writer = .absent) :
    Kept (notes ++ [.returned outcome])
      { call with caller := .returned outcome, done := done } where
  along := by rwa [filter_append_returned]
  abandoned given := ⟨(abandoned given).1, .inr (by rw [(abandoned given).2])⟩
  cancelled := nofun
  leaving := nofun
  entering := nofun
  returned other gone := by
    rcases List.mem_append.mp gone with earlier | this
    · exact absurd (kept.returned other earlier) (present other)
    · cases List.mem_singleton.mp this
      rfl
  decided _ _ := decided

/-- What an action has to keep: the relation of history and counters, and a reason for its note. -/
def Keeps (notes : List Note) (effect : Effect) : Prop :=
  Kept (notes ++ effect.note.toList) effect.call ∧ ∀ note ∈ effect.note, Because notes note

theorem keeps_quiet (kept : Kept notes call) : Keeps notes ⟨call, lock, none⟩ :=
  ⟨by rwa [Option.toList_none, List.append_nil], nofun⟩

theorem keeps_note (kept : Kept (notes ++ [note]) call) (reason : Because notes note) :
    Keeps notes ⟨call, lock, some note⟩ :=
  ⟨kept, fun _ same => Option.mem_some.mp same ▸ reason⟩

section Actions

variable (kept : Kept notes call)

include kept

variable {lock : LockUse} {writer : WriterPc} {state : State}

/-- The writer goes on without a note. -/
theorem Kept.quiet (begun : call.writer ≠ .absent)
    (along : Along call.frame writer call.state done (notes.filter Note.isWrite)) :
    Keeps notes ⟨{ call with writer := writer, done := done }, lock, none⟩ :=
  keeps_quiet (kept.advance begun (fun _ gone => gone) along (.inl rfl))

/-- The writer leaves a note. -/
theorem Kept.write (begun : call.writer ≠ .absent) (write : note.isWrite = true)
    (along : Along call.frame writer state call.done (notes.filter Note.isWrite ++ [note]))
    (claimed : state = call.state ∨ state = .writing) (reason : Because notes note) :
    Keeps notes ⟨{ call with writer := writer, state := state }, lock, some note⟩ :=
  keeps_note (kept.advance begun (fun _ => returned_mem_append_write write)
    (by rwa [filter_append_write write]) claimed) reason

/-! ### The writer -/

theorem keeps_lock (taken : act call .lock = some effect) :
    Keeps notes effect := by
  simp only [act] at taken
  split_ifs at taken with locking
  cases taken
  obtain ⟨undecided, empty, none⟩ := kept.along.of_early (by rw [locking]; rfl)
  refine kept.quiet (by rw [locking]; exact nofun) ?_
  rw [none, empty]
  exact .early rfl undecided

theorem keeps_commit (taken : act call .commit = some effect) :
    Keeps notes effect := by
  simp only [act] at taken
  split_ifs at taken with holding skip
  all_goals obtain ⟨undecided, empty, none⟩ := kept.along.of_early (by rw [holding]; rfl)
  · have abandoned : call.state = .abandoned := by
      cases state : call.state with
      | pending => exact absurd state skip.2
      | writing => exact absurd state undecided
      | abandoned => rfl
    cases taken
    refine kept.quiet (by rw [holding]; exact nofun) ?_
    rw [none, empty, abandoned]
    exact .skipped
  · -- only a detached call is abandoned, and it would have been skipped
    have pending : call.state = .pending := by
      cases state : call.state with
      | pending => rfl
      | writing => exact absurd state undecided
      | abandoned =>
        exact absurd ⟨(kept.abandoned state).1, by rw [state]; exact nofun⟩ skip
    cases taken
    refine kept.write (by rw [holding]; exact nofun) rfl ?_ (.inr rfl)
      (kept.not_returned holding pending)
    rw [none, empty]
    exact .committed

theorem keeps_startSend (taken : act call .startSend = some effect) :
    Keeps notes effect := by
  simp only [act] at taken
  split_ifs at taken with committed
  cases taken
  obtain ⟨writing, empty, writes⟩ := kept.along.determined.1 committed
  refine kept.write (by rw [committed]; exact nofun) rfl ?_ (.inl rfl) ?_
  · rw [writing, empty, writes]
    exact .sending
  · exact (mem_of_filter rfl).mpr (by rw [writes]; exact List.mem_singleton_self _)

theorem keeps_finishSend (taken : act call (.finishSend outcome) = some effect) :
    Keeps notes effect := by
  simp only [act] at taken
  split_ifs at taken with sending
  cases taken
  obtain ⟨writing, empty, writes⟩ := kept.along.determined.2.1 sending
  refine kept.write (by rw [sending]; exact nofun) rfl ?_ (.inl rfl) trivial
  rw [writing, empty, writes]
  exact .sent outcome

theorem keeps_deliver (taken : act call .deliver = some effect) :
    Keeps notes effect := by
  simp only [act] at taken
  split_ifs at taken
  cases at_ : call.writer with
  | sent outcome =>
    rw [at_] at taken
    cases taken
    obtain ⟨writing, writes⟩ := kept.along.determined.2.2.1 outcome at_
    refine kept.quiet (by rw [at_]; exact nofun) ?_
    rw [writing, writes]
    exact .wrote outcome (.inl rfl) (.inr rfl)
  | skipped =>
    rw [at_] at taken
    cases taken
    obtain ⟨abandoned, writes⟩ := kept.along.determined.2.2.2 at_
    refine kept.quiet (by rw [at_]; exact nofun) ?_
    rw [abandoned, writes]
    exact .skippedAll (.inl rfl) (.inr rfl)
  | _ => rw [at_] at taken; cases taken

theorem keeps_unlock (taken : act call .unlock = some effect) :
    Keeps notes effect := by
  simp only [act] at taken
  have along := kept.along
  cases at_ : call.writer with
  | delivered =>
    rw [at_] at taken along
    cases taken
    exact kept.quiet (by rw [at_]; exact nofun) along.unlock
  | sent outcome =>
    rw [at_] at taken
    dsimp only at taken
    split_ifs at taken
    cases taken
    obtain ⟨writing, writes⟩ := along.determined.2.2.1 outcome at_
    refine kept.quiet (by rw [at_]; exact nofun) ?_
    rw [writing, writes]
    exact .wrote outcome (.inr rfl) (.inr rfl)
  | _ => rw [at_] at taken; cases taken

/-! ### The caller -/

theorem keeps_call {entrance : Entrance} {data : Octets}
    (taken : act call (.call entrance data) = some effect) : Keeps notes effect := by
  simp only [act] at taken
  split_ifs at taken with absent
  cases taken
  have idle := kept.entering (.inl absent)
  obtain ⟨undecided, empty, none⟩ := kept.along.of_early (by rw [idle]; rfl)
  exact keeps_quiet {
    along := by
      rw [none, empty]
      exact .early (by rw [idle]; rfl) undecided
    abandoned := fun given => absurd given
      (kept.not_abandoned (by rw [absent]; exact nofun) (by rw [absent]; exact nofun))
    cancelled := nofun
    leaving := nofun
    entering := fun _ => idle
    returned := fun outcome gone => by cases absent.symm.trans (kept.returned outcome gone)
    decided := nofun }

theorem keeps_enter (taken : act call .enter = some effect) :
    Keeps notes effect := by
  simp only [act] at taken
  split_ifs at taken with entered early
  · cases taken
    have idle := kept.entering (.inr entered)
    refine keeps_note (kept.leave (by rw [entered]; exact nofun) kept.along ?_ (.inr idle)) trivial
    exact fun given => ⟨(kept.abandoned given).1, rfl⟩
  · cases taken
    have idle := kept.entering (.inr entered)
    obtain ⟨undecided, empty, none⟩ := kept.along.of_early (by rw [idle]; rfl)
    exact keeps_quiet {
      along := by
        rw [none, empty]
        exact .early rfl undecided
      abandoned := fun given => absurd given
        (kept.not_abandoned (by rw [entered]; exact nofun) (by rw [entered]; exact nofun))
      cancelled := nofun
      leaving := nofun
      entering := nofun
      returned := fun outcome gone => by cases entered.symm.trans (kept.returned outcome gone)
      decided := nofun }

theorem keeps_cancel (taken : act call .cancel = some effect) :
    Keeps notes effect := by
  cases taken
  exact keeps_quiet { kept with along := kept.along }

theorem keeps_receive (taken : act call .receive = some effect) :
    Keeps notes effect := by
  simp only [act] at taken
  split at taken
  · rename_i outcome waiting arrived
    cases taken
    have along := kept.along
    rw [arrived] at along
    have unabandoned := kept.not_abandoned (by rw [waiting]; exact nofun)
      (by rw [waiting]; exact nofun)
    refine keeps_note (kept.leave (by rw [waiting]; exact nofun) along.take
      (fun given => absurd given unabandoned) (.inl along.decided)) ?_
    cases outcome with
    | success =>
      obtain ⟨started, finished⟩ := along.of_success.resolve_left unabandoned
      exact ⟨⟨_, (mem_of_filter rfl).mpr started⟩, (mem_of_filter rfl).mpr finished⟩
    | contextError => trivial
    | failure => trivial
  · cases taken

theorem keeps_observeCancel (taken : act call .observeCancel = some effect) :
    Keeps notes effect := by
  simp only [act] at taken
  split_ifs at taken with observed
  obtain ⟨waiting, detached, -⟩ := observed
  cases taken
  exact keeps_quiet {
    along := kept.along
    abandoned := fun given => absurd given
      (kept.not_abandoned (by rw [waiting]; exact nofun) (by rw [waiting]; exact nofun))
    cancelled := fun _ => detached
    leaving := nofun
    entering := nofun
    returned := fun outcome gone => by cases waiting.symm.trans (kept.returned outcome gone)
    decided := nofun }

/-- The caller has made its attempt on the state. -/
theorem Kept.giveUp (cancelled : call.caller = .cancelled)
    (along : Along call.frame call.writer state call.done (notes.filter Note.isWrite))
    (decided : state ≠ .pending) : Kept notes { call with caller := .leaving, state := state } where
  along := along
  abandoned _ := ⟨kept.cancelled cancelled, .inl rfl⟩
  cancelled := nofun
  leaving _ := decided
  entering := nofun
  returned outcome gone := by cases cancelled.symm.trans (kept.returned outcome gone)
  decided := nofun

theorem keeps_abandon (taken : act call .abandon = some effect) :
    Keeps notes effect := by
  simp only [act] at taken
  split_ifs at taken with cancelled pending
  · cases taken
    have along := kept.along
    rw [pending] at along
    exact keeps_quiet (kept.giveUp cancelled along.abandon nofun)
  · cases taken
    exact keeps_quiet (kept.giveUp cancelled kept.along pending)

theorem keeps_returnError (taken : act call .returnError = some effect) :
    Keeps notes effect := by
  simp only [act] at taken
  split_ifs at taken with leaving
  cases taken
  exact keeps_note (kept.leave (by rw [leaving]; exact nofun) kept.along
    (fun given => ⟨(kept.abandoned given).1, rfl⟩) (.inl (kept.leaving leaving))) trivial

theorem act_keeps {action : Action} (taken : act call action = some effect) :
    Keeps notes effect := by
  cases action with
  | call => exact keeps_call kept taken
  | cancel => exact keeps_cancel kept taken
  | enter => exact keeps_enter kept taken
  | lock => exact keeps_lock kept taken
  | commit => exact keeps_commit kept taken
  | startSend => exact keeps_startSend kept taken
  | finishSend => exact keeps_finishSend kept taken
  | deliver => exact keeps_deliver kept taken
  | unlock => exact keeps_unlock kept taken
  | receive => exact keeps_receive kept taken
  | observeCancel => exact keeps_observeCancel kept taken
  | abandon => exact keeps_abandon kept taken
  | returnError => exact keeps_returnError kept taken

end Actions

/-! ### The mutex and the transport -/

/-- The counter of the writer says whether it holds the mutex. -/
def Holds (before after : WriterPc) : LockUse → Prop
  | .keeps => after.holds = before.holds
  | .acquires => before.holds = false ∧ after.holds = true
  | .releases => before.holds = true ∧ after.holds = false

/-- The counter of the writer says whether `Send` is at work. -/
def Sending (before after : WriterPc) : Option Note → Prop
  | some (.started _) => before = .committed ∧ after = .sending
  | some (.finished _) => before = .sending ∧ after ≠ .sending
  | _ => after = .sending ↔ before = .sending

theorem act_counter {action : Action} (kept : Kept notes call)
    (taken : act call action = some effect) :
    Holds call.writer effect.call.writer effect.lock ∧
      Sending call.writer effect.call.writer effect.note := by
  have entering := kept.entering
  cases action <;> simp only [act] at taken <;> grind [Holds, Sending, WriterPc.holds]

end Local

/-! ## The connection -/

/-- The calls made on a connection, the holder of `sendMu`, and what the calls have noted. -/
structure Connection where
  calls : Nat → Call := fun _ => {}
  sendMu : Option Nat := none
  log : List (Nat × Note) := []

structure Event where
  id : Nat
  action : Action
  deriving DecidableEq, Repr

/-- The holder of the mutex after its use; a mutex that is held is not acquired. -/
def LockUse.holder (id : Nat) (current : Option Nat) : LockUse → Option (Option Nat)
  | .keeps => some current
  | .acquires => if current = none then some (some id) else none
  | .releases => some none

/-- One action of one call. -/
def step (connection : Connection) (event : Event) : Option Connection :=
  match act (connection.calls event.id) event.action with
  | none => none
  | some effect =>
    match effect.lock.holder event.id connection.sendMu with
    | none => none
    | some holder => some {
        calls := Function.update connection.calls event.id effect.call
        sendMu := holder
        log := connection.log ++ effect.note.toList.map (event.id, ·) }

theorem step_eq_some {connection next : Connection} {event : Event}
    (taken : step connection event = some next) :
    ∃ effect holder, act (connection.calls event.id) event.action = some effect ∧
      effect.lock.holder event.id connection.sendMu = some holder ∧
      next = {
        calls := Function.update connection.calls event.id effect.call
        sendMu := holder
        log := connection.log ++ effect.note.toList.map (event.id, ·) } := by
  unfold step at taken
  split at taken
  · cases taken
  rename_i effect acted
  split at taken
  · cases taken
  · next holder held => exact ⟨effect, holder, acted, held, (Option.some.inj taken).symm⟩

/-- The notes of one call. -/
def notesOf (id : Nat) (log : List (Nat × Note)) : List Note :=
  log.filterMap fun entry => if entry.1 = id then some entry.2 else none

/-- A write begins when `Send` is called and ends when it returns. -/
def writeEdge (entry : Nat × Note) : Option (Edge Nat) :=
  match entry.2 with
  | .started _ => some (.begins entry.1)
  | .finished _ => some (.ends entry.1)
  | _ => none

section Notes

variable {id : Nat} {log past future : List (Nat × Note)} {note : Note}

theorem mem_notesOf : note ∈ notesOf id log ↔ (id, note) ∈ log := by
  simp [notesOf]

@[simp] theorem notesOf_append (id : Nat) (past future : List (Nat × Note)) :
    notesOf id (past ++ future) = notesOf id past ++ notesOf id future :=
  List.filterMap_append

theorem notesOf_cons_self (id : Nat) (note : Note) (future : List (Nat × Note)) :
    notesOf id ((id, note) :: future) = note :: notesOf id future := by
  simp [notesOf]

theorem notesOf_map_self (id : Nat) (notes : List Note) :
    notesOf id (notes.map (id, ·)) = notes := by
  induction notes with
  | nil => rfl
  | cons note notes ih => rw [List.map_cons, notesOf_cons_self, ih]

theorem notesOf_map_other {other : Nat} (different : id ≠ other) (notes : List Note) :
    notesOf other (notes.map (id, ·)) = [] := by
  simp [notesOf, different]

end Notes

/-- What holds of a connection at any time. -/
structure Invariant (connection : Connection) : Prop where
  kept : ∀ id, Kept (notesOf id connection.log) (connection.calls id)
  justified : ∀ id, Justified Because (notesOf id connection.log)
  holder : ∀ id, (connection.calls id).writer.holds = true ↔ connection.sendMu = some id
  sending : ∀ id, openInterval writeEdge connection.log = some id ↔
    (connection.calls id).writer = .sending
  orderly : Justified (Orderly writeEdge) connection.log

theorem invariant_initial : Invariant {} where
  kept _ := kept_initial
  justified _ := justified_nil
  holder _ := ⟨nofun, nofun⟩
  sending _ := ⟨nofun, nofun⟩
  orderly := justified_nil

section Step

variable {connection : Connection} {id : Nat} {action : Action} {effect : Effect}

section Kept

variable (invariant : Invariant connection)

include invariant

theorem Invariant.kept_step (acted : act (connection.calls id) action = some effect) :
    ∀ other, Kept (notesOf other (connection.log ++ effect.note.toList.map (id, ·)))
      (Function.update connection.calls id effect.call other) := by
  refine (Function.forall_update_iff _ fun other call => Kept (notesOf other _) call).mpr
    ⟨?_, fun other different => ?_⟩
  · rw [notesOf_append, notesOf_map_self]
    exact (act_keeps (invariant.kept id) acted).1
  · rw [notesOf_append, notesOf_map_other (Ne.symm different), List.append_nil]
    exact invariant.kept other

theorem Invariant.justified_step
    (acted : act (connection.calls id) action = some effect) (other : Nat) :
    Justified Because (notesOf other (connection.log ++ effect.note.toList.map (id, ·))) := by
  by_cases same : other = id
  · subst same
    rw [notesOf_append, notesOf_map_self]
    have reason := (act_keeps (invariant.kept other) acted).2
    cases noted : effect.note with
    | none =>
      rw [Option.toList_none, List.append_nil]
      exact invariant.justified other
    | some note => exact (invariant.justified other).snoc (reason note (by rw [noted]; rfl))
  · rw [notesOf_append, notesOf_map_other (Ne.symm same), List.append_nil]
    exact invariant.justified other

theorem Invariant.holder_step {holder : Option Nat}
    (acted : act (connection.calls id) action = some effect)
    (held : effect.lock.holder id connection.sendMu = some holder) :
    ∀ other, (Function.update connection.calls id effect.call other).writer.holds = true ↔
      holder = some other := by
  have counter := (act_counter (invariant.kept id) acted).1
  rw [Function.forall_update_iff _ fun other (call : Call) =>
    call.writer.holds = true ↔ holder = some other]
  cases use : effect.lock with
  | keeps =>
    rw [use] at counter held
    cases held
    exact ⟨by rw [counter]; exact invariant.holder id, fun other _ => invariant.holder other⟩
  | acquires =>
    rw [use] at counter held
    simp only [LockUse.holder] at held
    split_ifs at held with free
    cases held
    refine ⟨iff_of_true counter.2 rfl, fun other different => ?_⟩
    rw [invariant.holder other, free]
    exact iff_of_false nofun fun equal => different (Option.some.inj equal).symm
  | releases =>
    rw [use] at counter held
    cases held
    refine ⟨by rw [counter.2]; exact iff_of_false nofun nofun, fun other different => ?_⟩
    rw [invariant.holder other, (invariant.holder id).mp counter.1]
    exact iff_of_false (fun equal => different (Option.some.inj equal).symm) nofun

/-- The mutex keeps the transport free for a writer that is about to call `Send`. -/
theorem Invariant.idle_of_committed (committed : (connection.calls id).writer = .committed) :
    openInterval writeEdge connection.log = none := by
  cases busy : openInterval writeEdge connection.log with
  | none => rfl
  | some other =>
    have sending := (invariant.sending other).mp busy
    have theirs := (invariant.holder other).mp (by rw [sending]; rfl)
    have ours := (invariant.holder id).mp (by rw [committed]; rfl)
    cases theirs.symm.trans ours
    cases committed.symm.trans sending

theorem Invariant.orderly_step (acted : act (connection.calls id) action = some effect) :
    Justified (Orderly writeEdge) (connection.log ++ effect.note.toList.map (id, ·)) := by
  have counter := (act_counter (invariant.kept id) acted).2
  cases noted : effect.note with
  | none => simpa using invariant.orderly
  | some note =>
    rw [noted] at counter
    refine invariant.orderly.snoc ?_
    cases note with
    | committed | returned => trivial
    | started data => exact invariant.idle_of_committed counter.1
    | finished success => exact (invariant.sending id).mpr counter.1

theorem Invariant.sending_step (acted : act (connection.calls id) action = some effect) :
    ∀ other,
      openInterval writeEdge (connection.log ++ effect.note.toList.map (id, ·)) = some other ↔
        (Function.update connection.calls id effect.call other).writer = .sending := by
  have counter := (act_counter (invariant.kept id) acted).2
  rw [Function.forall_update_iff _ fun other (call : Call) =>
    openInterval writeEdge _ = some other ↔ call.writer = .sending]
  cases noted : effect.note with
  | none =>
    rw [noted] at counter
    rw [Option.toList_none, List.map_nil, List.append_nil]
    exact ⟨(invariant.sending id).trans counter.symm, fun other _ => invariant.sending other⟩
  | some note =>
    rw [noted] at counter
    rw [Option.toList_some, List.map_singleton, openInterval_snoc]
    cases note with
    | committed | returned =>
      exact ⟨(invariant.sending id).trans counter.symm, fun other _ => invariant.sending other⟩
    | started data =>
      refine ⟨iff_of_true rfl counter.2, fun other different => ?_⟩
      rw [← invariant.sending other, invariant.idle_of_committed counter.1]
      exact iff_of_false (fun equal => different (Option.some.inj equal).symm) nofun
    | finished success =>
      refine ⟨iff_of_false nofun counter.2, fun other different => ?_⟩
      rw [← invariant.sending other, (invariant.sending id).mpr counter.1]
      exact iff_of_false nofun fun equal => different (Option.some.inj equal).symm

end Kept

theorem invariant_step {next : Connection} {event : Event} (invariant : Invariant connection)
    (taken : step connection event = some next) : Invariant next := by
  obtain ⟨effect, holder, acted, held, rfl⟩ := step_eq_some taken
  exact {
    kept := invariant.kept_step acted
    justified := invariant.justified_step acted
    holder := invariant.holder_step acted held
    sending := invariant.sending_step acted
    orderly := invariant.orderly_step acted }

theorem invariant_run {final : Connection} {events : List Event}
    (reached : Machine.run step {} events = some final) : Invariant final :=
  Machine.run_invariant Invariant (fun _ _ _ _ => invariant_step) invariant_initial
    (AllSteps.of_events (fun _ _ => trivial) _) reached

end Step

/-! ## Whole runs -/

section Runs

variable {connection : Connection} {id : Nat} {past future : List (Nat × Note)}

theorem notesOf_split {log : List (Nat × Note)} {note : Note}
    (split : log = past ++ (id, note) :: future) :
    notesOf id log = notesOf id past ++ note :: notesOf id future := by
  rw [split, notesOf_append, notesOf_cons_self]

/-- `Send` is called at most once for a call. -/
theorem Invariant.started_once (invariant : Invariant connection) (id : Nat) :
    (notesOf id connection.log).countP Note.isStarted ≤ 1 := by
  have writes := (invariant.kept id).along.countP_isStarted
  rw [List.countP_filter] at writes
  refine le_trans (List.countP_mono_left fun note _ started => ?_) writes
  cases note with
  | started => rfl
  | _ => cases started

/-- Nil is returned for a write of the call's own data that the transport reported as done. -/
theorem Invariant.success_honest (invariant : Invariant connection)
    (split : connection.log = past ++ (id, .returned .success) :: future) :
    (id, .started (connection.calls id).frame) ∈ past ∧ (id, .finished true) ∈ past := by
  obtain ⟨⟨passed, started⟩, finished⟩ := invariant.justified id _ _ _ (notesOf_split split)
  have whole : .started passed ∈ notesOf id connection.log := by
    rw [notesOf_split split]
    exact List.mem_append_left _ started
  cases (invariant.kept id).along.data_eq ((mem_of_filter rfl).mp whole)
  exact ⟨mem_notesOf.mp started, mem_notesOf.mp finished⟩

/-- A call that returns before its writer has committed itself is never written. -/
theorem Invariant.never_started (invariant : Invariant connection) {outcome : Outcome}
    (split : connection.log = past ++ (id, .returned outcome) :: future)
    (uncommitted : (id, .committed) ∉ past) (passed : Octets) :
    (id, .started passed) ∉ connection.log := by
  intro started
  obtain ⟨earlier, later, place, committed⟩ :=
    (invariant.justified id).of_mem (mem_notesOf.mpr started)
  have member : .committed ∈ notesOf id connection.log := by
    rw [place]
    exact List.mem_append_left _ committed
  have commits := mem_notesOf.mp member
  rw [split] at commits
  -- the writer commits itself after the return, which it may not
  rcases List.mem_append.mp commits with before | after
  · exact uncommitted before
  · rcases List.mem_cons.mp after with same | after
    · cases same
    · obtain ⟨between, rest, found⟩ := List.append_of_mem after
      have place : notesOf id connection.log =
          (notesOf id past ++ .returned outcome :: notesOf id between) ++
            .committed :: notesOf id rest := by
        rw [notesOf_split split, found, notesOf_append, notesOf_cons_self]
        simp
      exact invariant.justified id _ _ _ place outcome (by simp)

end Runs

/-- In every interleaving of any number of calls: `Send` has returned before it is called again; it
is called at most once for a call; nil is returned only after it was called with the data of the
call and reported success; and a call that returns the error of its context while its state is not
`writing` has no data written at any time. -/
theorem sends_atomic {events : List Event} {final : Connection}
    (reached : run step {} events = some final) :
    (∀ before between after first second firstData secondData,
      final.log = before ++ (first, .started firstData) ::
        (between ++ (second, .started secondData) :: after) →
      ∃ success, (first, .finished success) ∈ between) ∧
    (∀ id, (notesOf id final.log).countP Note.isStarted ≤ 1) ∧
    (∀ id past future, final.log = past ++ (id, .returned .success) :: future →
      (id, .started (final.calls id).frame) ∈ past ∧ (id, .finished true) ∈ past) ∧
    (∀ id past future, final.log = past ++ (id, .returned .contextError) :: future →
      (id, .committed) ∉ past → ∀ data, (id, .started data) ∉ final.log) := by
  have invariant := invariant_run reached
  refine ⟨?_, invariant.started_once, ?_, ?_⟩
  · intro before between after first second firstData secondData split
    obtain ⟨⟨id, note⟩, member, ended⟩ := ends_between invariant.orderly rfl rfl split
    cases note with
    | finished success =>
      cases ended
      exact ⟨success, member⟩
    | _ => cases ended
  · intro id past future split
    exact invariant.success_honest split
  · intro id past future split uncommitted
    exact invariant.never_started split uncommitted

/-- While the first call writes, the second is made and gives up; its writer gets the mutex in the
end. -/
def crossing : List Event :=
  [⟨0, .call .send [1]⟩, ⟨0, .enter⟩, ⟨1, .call .send [2]⟩, ⟨1, .enter⟩, ⟨0, .lock⟩, ⟨0, .commit⟩,
    ⟨0, .startSend⟩, ⟨1, .cancel⟩, ⟨1, .observeCancel⟩, ⟨1, .abandon⟩, ⟨1, .returnError⟩,
    ⟨0, .finishSend .success⟩, ⟨0, .deliver⟩, ⟨0, .unlock⟩, ⟨1, .lock⟩, ⟨1, .commit⟩,
    ⟨1, .deliver⟩, ⟨0, .receive⟩, ⟨1, .unlock⟩]

theorem sends_atomic_crossing : ∃ final, run step {} crossing = some final ∧
    (0, .started [1]) ∈ final.log ∧ (1, .returned .contextError) ∈ final.log ∧
    ∀ data, (1, .started data) ∉ final.log := by
  have logged : (run step {} crossing).map Connection.log = some
      [(0, .committed), (0, .started [1]), (1, .returned .contextError), (0, .finished true),
        (0, .returned .success)] := by decide +kernel
  obtain ⟨final, reached, log⟩ := Option.map_eq_some_iff.mp logged
  refine ⟨final, reached, by rw [log]; decide, by rw [log]; decide, ?_⟩
  exact (sends_atomic reached).2.2.2 1 [(0, .committed), (0, .started [1])]
    [(0, .finished true), (0, .returned .success)] log (by decide)

end GoMms.Sends
