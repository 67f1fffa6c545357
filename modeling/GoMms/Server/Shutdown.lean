import GoMms.Foundation.Machine
import GoMms.Serverconn.Conn

/-!
# Shutdown against a serving connection

Two goroutines of `server.go` share a connection. One runs `Serve`; the handler it calls for a
confirmed request holds the `busy` token while it works. The other belongs to `Shutdown`: it
takes the token, sends the abort, closes the transport and gives the token back. Writes to the
transport are made under `sendMu`. Each event is one atomic action of one goroutine, so a run is
an interleaving. The context of `Shutdown` is never done, which leaves its `select` one case.

The token is given back when the handler returns, before its reply is sent.
-/

namespace GoMms.Server

open Serverconn

universe u

/-- The goroutine that holds a lock. -/
inductive Party where
  | serve
  | shutdown
  deriving DecidableEq, Repr

/-- One execution of the service handler. -/
structure HandlerRun where
  number : Nat
  call : Call
  deriving DecidableEq, Repr

/-- A PDU on its way to `sendData`: the handler run it answers, if any, and whether `Serve`
returns after it. -/
structure Outgoing where
  pdu : Octets
  answers : Option HandlerRun := none
  last : Bool := false
  deriving DecidableEq, Repr

/-- Where the goroutine that runs `Serve` is. -/
inductive ServePc where
  | receiving
  | requested (call : Call)
  | handling (call : Call)
  | handled (out : Outgoing)
  | replying (out : Outgoing)
  | sending (out : Outgoing)
  | sent (continues : Bool)
  | releasing
  | stopped
  deriving DecidableEq, Repr

/-- Where the goroutine of `Shutdown` is. -/
inductive ShutdownPc where
  | idle
  | waiting
  | holding
  | locking
  | aborting
  | aborted
  | closing
  | leaving
  | done
  deriving DecidableEq, Repr

/-- What the two goroutines did: handler executions, PDUs handed to an open transport, and the
abort and the close of `Shutdown`. -/
inductive LogEntry where
  | handlerRan (run : HandlerRun)
  | handed (answers : Option HandlerRun) (pdu : Octets)
  | abort
  | close
  deriving DecidableEq, Repr

structure System (σ : Type u) where
  serve : ServePc := .receiving
  shutdown : ShutdownPc := .idle
  busy : Option Party := none
  sendMu : Option Party := none
  /-- The transport has been closed. -/
  transportClosed : Bool := false
  /-- The `closed` flag of the `ServerConn`. -/
  connClosed : Bool := false
  handlerState : σ
  runs : Nat := 0
  log : List LogEntry := []
  deriving DecidableEq

/-- The actions of the goroutine that runs `Serve`. A Boolean says whether `Send` succeeds on an
open transport. -/
inductive ServeEvent where
  | receive (data : Octets)
  | receiveError
  | takeToken
  | dispatch
  | returnToken
  | lockSend
  | send (ok : Bool)
  | unlockSend
  | sendRelease
  | unregister
  deriving DecidableEq, Repr

/-- The actions of the goroutine of `Shutdown`. -/
inductive ShutdownEvent where
  | start
  | takeToken
  | checkClosed
  | lockSend
  | sendAbort
  | unlockSend
  | abortTimeout
  | close
  | returnToken
  deriving DecidableEq, Repr

inductive Event where
  | serve (event : ServeEvent)
  | shutdown (event : ShutdownEvent)
  deriving DecidableEq, Repr

/-- Where a received frame leads. -/
def afterReceive (opts : MMSOptions) (data : Octets) : ServePc :=
  match frameAction opts data with
  | .fail _ => .stopped
  | .release => .releasing
  | .conclude => .replying { pdu := Codec.marshalConcludeResponse, last := true }
  | .skip => .receiving
  | .reply pdu => .replying { pdu := pdu }
  | .request call => .requested call

variable {σ : Type u} (opts : MMSOptions) (handler : σ → Call → HandlerResult × σ)

/-- One action of the goroutine that runs `Serve`. -/
def serveStep (system : System σ) (event : ServeEvent) : Option (System σ) :=
  match event, system.serve with
  | .receive data, .receiving =>
    if system.transportClosed then none
    else some { system with serve := afterReceive opts data }
  | .receiveError, .receiving => some { system with serve := .stopped }
  -- `sc.busy <- struct{}{}` at the start of the handler
  | .takeToken, .requested call =>
    if system.busy = none then
      some { system with serve := .handling call, busy := some .serve }
    else none
  | .dispatch, .handling call =>
    let (result, handlerState) := handler system.handlerState call
    let run : HandlerRun := ⟨system.runs, call⟩
    some { system with
      serve := .handled { pdu := confirmedReply opts call.invokeID result, answers := some run }
      handlerState := handlerState
      runs := system.runs + 1
      log := system.log ++ [.handlerRan run] }
  -- the deferred `<-sc.busy`: the handler returns, its reply has not been sent
  | .returnToken, .handled out => some { system with serve := .replying out, busy := none }
  | .lockSend, .replying out =>
    if system.sendMu = none then
      some { system with serve := .sending out, sendMu := some .serve }
    else none
  | .send ok, .sending out =>
    if system.transportClosed then some { system with serve := .sent false }
    else
      some { system with
        serve := .sent (ok && !out.last)
        log := system.log ++ [.handed out.answers out.pdu] }
  | .unlockSend, .sent continues =>
    some { system with
      serve := if continues then .receiving else .stopped
      sendMu := none }
  -- `handleRelease` sends without the lock
  | .sendRelease, .releasing => some { system with serve := .stopped }
  | .unregister, .stopped => some { system with connClosed := true }
  | _, _ => none

/-- One action of the goroutine of `Shutdown`. -/
def shutdownStep (system : System σ) (event : ShutdownEvent) : Option (System σ) :=
  match event, system.shutdown with
  | .start, .idle => some { system with shutdown := .waiting }
  | .takeToken, .waiting =>
    if system.busy = none then
      some { system with shutdown := .holding, busy := some .shutdown }
    else none
  | .checkClosed, .holding =>
    some { system with shutdown := if system.connClosed then .leaving else .locking }
  | .lockSend, .locking =>
    if system.sendMu = none then
      some { system with shutdown := .aborting, sendMu := some .shutdown }
    else none
  | .sendAbort, .aborting =>
    if system.transportClosed then some { system with shutdown := .aborted }
    else some { system with shutdown := .aborted, log := system.log ++ [.abort] }
  | .unlockSend, .aborted => some { system with shutdown := .closing, sendMu := none }
  -- the one-second bound on the abort closes the transport under it
  | .abortTimeout, .locking | .abortTimeout, .aborting | .abortTimeout, .aborted =>
    some { system with transportClosed := true, log := system.log ++ [.close] }
  | .close, .closing =>
    some { system with
      shutdown := .leaving, transportClosed := true, log := system.log ++ [.close] }
  | .returnToken, .leaving => some { system with shutdown := .done, busy := none }
  | _, _ => none

def step (system : System σ) : Event → Option (System σ)
  | .serve event => serveStep opts handler system event
  | .shutdown event => shutdownStep system event

/-- A connection in its request loop before `Shutdown` is called. -/
def System.new (handlerState : σ) : System σ := { handlerState := handlerState }

/-! ## Program points -/

namespace ServePc

/-- The handler is between taking and returning the `busy` token. -/
def holdsToken : ServePc → Bool
  | handling _ | handled _ => true
  | _ => false

/-- The PDU on its way to the transport. -/
def outgoing : ServePc → Option Outgoing
  | handled out | replying out | sending out => some out
  | _ => none

/-- The handler run whose reply is computed and not yet handed to the transport. -/
def unsent (pc : ServePc) : Option HandlerRun := pc.outgoing.bind (·.answers)

end ServePc

namespace ShutdownPc

/-- `Shutdown` has not taken the token yet. -/
def waits : ShutdownPc → Bool
  | idle | waiting => true
  | _ => false

/-- `Shutdown` is between taking and returning the token. -/
def holdsToken : ShutdownPc → Bool
  | idle | waiting | done => false
  | _ => true

theorem free_of_waits {pc : ShutdownPc} (waits : pc.waits = true) : pc.holdsToken = false := by
  cases pc <;> first | rfl | exact nomatch waits

theorem past_of_holdsToken {pc : ShutdownPc} (held : pc.holdsToken = true) : pc.waits = false := by
  cases pc <;> first | rfl | exact nomatch held

end ShutdownPc

/-- A received frame never leads to a program point that holds the token or owes a reply. -/
theorem afterReceive_calm (opts : MMSOptions) (data : Octets) :
    (afterReceive opts data).holdsToken = false ∧ (afterReceive opts data).unsent = none := by
  unfold afterReceive
  split <;> exact ⟨rfl, rfl⟩

variable {opts handler} {system next : System σ}

/-- What one action of `Serve` does to the token, the reply it owes and the log. -/
theorem serveStep_cases {event : ServeEvent}
    (taken : serveStep opts handler system event = some next) :
    next.shutdown = system.shutdown ∧ next.transportClosed = system.transportClosed ∧
    -- no token, no reply
    ((next.busy = system.busy ∧ next.log = system.log ∧ system.serve.unsent = none ∧
        next.serve.holdsToken = false ∧ next.serve.unsent = none) ∨
      -- the handler takes the token
      (event = .takeToken ∧ system.serve.unsent = none ∧ system.busy = none ∧
        next.busy = some .serve ∧ next.log = system.log ∧ next.serve.unsent = none) ∨
      -- the handler runs
      (∃ call result, system.serve = .handling call ∧ next.busy = system.busy ∧
        next.log = system.log ++ [.handlerRan ⟨system.runs, call⟩] ∧
        next.serve = .handled
          { pdu := confirmedReply opts call.invokeID result,
            answers := some ⟨system.runs, call⟩ }) ∨
      -- the handler returns
      (∃ out, system.serve = .handled out ∧ next.serve = .replying out ∧ next.busy = none ∧
        next.log = system.log) ∨
      -- the reply waits for `sendMu` and is sent
      (∃ out, system.serve = .replying out ∧ next.serve = .sending out ∧
        next.busy = system.busy ∧ next.log = system.log) ∨
      ∃ out continues, system.serve = .sending out ∧ next.serve = .sent continues ∧
        next.busy = system.busy ∧
        (system.transportClosed = true ∧ next.log = system.log ∨
          system.transportClosed = false ∧
            next.log = system.log ++ [.handed out.answers out.pdu])) := by
  unfold serveStep at taken
  split at taken
  case h_1 data here =>
    split at taken
    · cases taken
    · cases taken
      refine ⟨rfl, rfl, .inl ⟨rfl, rfl, by rw [here]; rfl, afterReceive_calm opts data⟩⟩
  case h_2 here =>
    cases taken
    exact ⟨rfl, rfl, .inl ⟨rfl, rfl, by rw [here]; rfl, rfl, rfl⟩⟩
  case h_3 call here =>
    split at taken
    · rename_i free
      cases taken
      exact ⟨rfl, rfl, .inr (.inl ⟨rfl, by rw [here]; rfl, free, rfl, rfl, rfl⟩)⟩
    · cases taken
  case h_4 call here =>
    cases taken
    exact ⟨rfl, rfl, .inr (.inr (.inl ⟨call, _, here, rfl, rfl, rfl⟩))⟩
  case h_5 out here =>
    cases taken
    exact ⟨rfl, rfl, .inr (.inr (.inr (.inl ⟨out, here, rfl, rfl, rfl⟩)))⟩
  case h_6 out here =>
    split at taken
    · cases taken
      exact ⟨rfl, rfl, .inr (.inr (.inr (.inr (.inl ⟨out, here, rfl, rfl, rfl⟩))))⟩
    · cases taken
  case h_7 ok out here =>
    split at taken
    · rename_i closed
      cases taken
      exact ⟨rfl, rfl, .inr (.inr (.inr (.inr (.inr
        ⟨out, _, here, rfl, rfl, .inl ⟨closed, rfl⟩⟩))))⟩
    rename_i opened
    cases taken
    exact ⟨rfl, rfl, .inr (.inr (.inr (.inr (.inr
      ⟨out, _, here, rfl, rfl, .inr ⟨by simpa using opened, rfl⟩⟩))))⟩
  case h_8 continues here =>
    cases taken
    refine ⟨rfl, rfl, .inl ⟨rfl, rfl, by rw [here]; rfl, ?_⟩⟩
    cases continues <;> exact ⟨rfl, rfl⟩
  case h_9 here =>
    cases taken
    exact ⟨rfl, rfl, .inl ⟨rfl, rfl, by rw [here]; rfl, rfl, rfl⟩⟩
  case h_10 here =>
    cases taken
    refine ⟨rfl, rfl, .inl ⟨rfl, rfl, ?_, ?_, ?_⟩⟩ <;> simp [here, ServePc.unsent,
      ServePc.outgoing, ServePc.holdsToken]
  case h_11 => cases taken

/-- What one action of `Shutdown` does to the token, the transport and the log. -/
theorem shutdownStep_cases {event : ShutdownEvent}
    (taken : shutdownStep system event = some next) :
    next.serve = system.serve ∧
    -- it is called
    ((system.shutdown.waits = true ∧ next.shutdown.waits = true ∧ next.busy = system.busy ∧
        next.transportClosed = system.transportClosed ∧ next.log = system.log) ∨
      -- it takes the token
      (event = .takeToken ∧ system.shutdown.waits = true ∧ system.busy = none ∧
        next.busy = some .shutdown ∧ next.shutdown.waits = false ∧ next.log = system.log) ∨
      -- it aborts and closes
      (system.shutdown.holdsToken = true ∧ next.shutdown.waits = false ∧
        next.busy = system.busy ∧
        (next.log = system.log ∨ next.log = system.log ++ [.abort] ∨
          next.log = system.log ++ [.close])) ∨
      -- it returns the token
      (system.shutdown.holdsToken = true ∧ next.shutdown = .done ∧ next.busy = none ∧
        next.log = system.log)) := by
  unfold shutdownStep at taken
  split at taken
  all_goals
    rename_i here
    try split at taken
    all_goals cases taken
    all_goals simp_all [ShutdownPc.waits, ShutdownPc.holdsToken]

/-! ## The guarantee -/

/-- The reply to a handler run is in the log: a confirmed response or error with the invoke ID
of the request. -/
def Replied (log : List LogEntry) (run : HandlerRun) : Prop :=
  ∃ pdu, .handed (some run) pdu ∈ log ∧
    (Codec.Carries 1 run.call.invokeID pdu ∨ Codec.Carries 2 run.call.invokeID pdu)

/-- Every handler run of the log had its reply handed to the transport before `Shutdown` sent
the abort and before it closed the transport. -/
def NoReplyLost (log : List LogEntry) : Prop :=
  ∀ before entry after, log = before ++ entry :: after → entry = .abort ∨ entry = .close →
    ∀ run, .handlerRan run ∈ log → Replied before run

section Log

variable {log : List LogEntry} {run : HandlerRun} {entry : LogEntry}

theorem Replied.append (replied : Replied log run) (entry : LogEntry) :
    Replied (log ++ [entry]) run := by
  obtain ⟨pdu, member, carries⟩ := replied
  exact ⟨pdu, List.mem_append_left _ member, carries⟩

theorem noReplyLost_of_untouched (noAbort : .abort ∉ log) (noClose : .close ∉ log) :
    NoReplyLost log := by
  rintro before entry after rfl (rfl | rfl)
  · exact (noAbort (by simp)).elim
  · exact (noClose (by simp)).elim

/-- An entry that is no handler run keeps the guarantee; an abort or a close needs every run
replied. -/
theorem NoReplyLost.append (kept : NoReplyLost log) (noRun : ∀ run, entry ≠ .handlerRan run)
    (replied : entry = .abort ∨ entry = .close → ∀ run, .handlerRan run ∈ log → Replied log run) :
    NoReplyLost (log ++ [entry]) := by
  intro before last after split ends run ran
  have ranBefore : .handlerRan run ∈ log := by
    rcases List.mem_append.mp ran with member | member
    · exact member
    · exact (noRun run (List.mem_singleton.mp member).symm).elim
  rcases List.eq_nil_or_concat after with rfl | ⟨rest, final, rfl⟩
  · obtain ⟨rfl, same⟩ := List.append_inj' split rfl
    obtain rfl : entry = last := by simpa using same
    exact replied ends run ranBefore
  · have shorter : log ++ [entry] = (before ++ last :: rest) ++ [final] := by simpa using split
    obtain ⟨rfl, -⟩ := List.append_inj' shorter rfl
    exact kept before last rest rfl ends run ranBefore

end Log

/-- `Shutdown` takes the token only while no computed reply is unsent, and the handler takes it
only while `Shutdown` has not. -/
def RepliesFirst (system : System σ) (event : Event) : Prop :=
  (event = .shutdown .takeToken → system.serve.unsent = none) ∧
    (event = .serve .takeToken → system.shutdown.waits = true)

instance RepliesFirst.decidable (system : System σ) (event : Event) :
    Decidable (RepliesFirst system event) :=
  inferInstanceAs (Decidable (_ ∧ _))

/-- `Serve` still has to hand over the reply to this run. -/
def Owes (pc : ServePc) (run : HandlerRun) : Prop :=
  ∃ out, pc.outgoing = some out ∧ out.answers = some run ∧
    (Codec.Carries 1 run.call.invokeID out.pdu ∨ Codec.Carries 2 run.call.invokeID out.pdu)

variable {pc : ServePc}

theorem Owes.unsent {run : HandlerRun} (owes : Owes pc run) : pc.unsent = some run := by
  obtain ⟨out, going, answers, -⟩ := owes
  simp [ServePc.unsent, going, answers]

theorem Owes.move {pc' : ServePc} {run : HandlerRun} (owes : Owes pc run)
    (same : pc'.outgoing = pc.outgoing) : Owes pc' run := by
  obtain ⟨out, going, facts⟩ := owes
  exact ⟨out, same.trans going, facts⟩

theorem not_owes (nothing : pc.unsent = none) (run : HandlerRun) : ¬ Owes pc run := by
  intro owes
  rw [owes.unsent] at nothing
  exact nomatch nothing

/-- The invariant of runs whose steps all meet the condition. -/
structure Orderly (system : System σ) : Prop where
  serveToken : system.serve.holdsToken = true → system.busy = some .serve
  shutdownToken : system.shutdown.holdsToken = true → system.busy = some .shutdown
  accounted : ∀ run, .handlerRan run ∈ system.log → Replied system.log run ∨ Owes system.serve run
  quiet : system.shutdown.waits = false →
    system.serve.holdsToken = false ∧ system.serve.unsent = none
  untouched : system.shutdown.waits = true →
    system.transportClosed = false ∧ .abort ∉ system.log ∧ .close ∉ system.log
  kept : NoReplyLost system.log

theorem orderly_new (handlerState : σ) : Orderly (System.new handlerState) where
  serveToken held := nomatch held
  shutdownToken held := nomatch held
  accounted _ ran := nomatch ran
  quiet past := nomatch past
  untouched _ := ⟨rfl, List.not_mem_nil, List.not_mem_nil⟩
  kept := noReplyLost_of_untouched List.not_mem_nil List.not_mem_nil

namespace Orderly

section Kept

variable (orderly : Orderly system)

include orderly

/-- While the handler holds the token `Shutdown` has not taken it. -/
theorem waits_of_holdsToken (held : system.serve.holdsToken = true) :
    system.shutdown.waits = true := by
  by_contra past
  have calm := (orderly.quiet (by simpa using past)).1
  rw [held] at calm
  exact nomatch calm

/-- A handler that holds the token keeps `Shutdown` from holding it. -/
theorem shutdown_free (held : system.serve.holdsToken = true) :
    system.shutdown.holdsToken = false := by
  by_contra both
  have mine := orderly.serveToken held
  rw [orderly.shutdownToken (by simpa using both)] at mine
  exact nomatch mine

/-- Once `Shutdown` has the token every handler run has its reply in the log. -/
theorem replied_of_past (past : system.shutdown.waits = false)
    {run : HandlerRun} (ran : .handlerRan run ∈ system.log) : Replied system.log run := by
  rcases orderly.accounted run ran with replied | owes
  · exact replied
  · exact (not_owes (orderly.quiet past).2 run owes).elim

/-- An action of `Serve` that writes no log entry. -/
theorem serve_silent (shutdown : next.shutdown = system.shutdown)
    (closed : next.transportClosed = system.transportClosed) (log : next.log = system.log)
    (serveToken : next.serve.holdsToken = true → next.busy = some .serve)
    (shutdownToken : next.shutdown.holdsToken = true → next.busy = some .shutdown)
    (owes : ∀ run, Owes system.serve run → Owes next.serve run)
    (quiet : next.shutdown.waits = false →
      next.serve.holdsToken = false ∧ next.serve.unsent = none) : Orderly next where
  serveToken := serveToken
  shutdownToken := shutdownToken
  accounted run ran := by
    rw [log] at ran ⊢
    exact (orderly.accounted run ran).imp_right (owes run)
  quiet := quiet
  untouched := by
    rw [shutdown, closed, log]
    exact orderly.untouched
  kept := by
    rw [log]
    exact orderly.kept

/-- The handler runs while `Shutdown` waits, and `Serve` then owes its reply. -/
theorem serve_dispatch {call : Call} {result : HandlerResult}
    (shutdown : next.shutdown = system.shutdown)
    (closed : next.transportClosed = system.transportClosed)
    (here : system.serve = .handling call) (busy : next.busy = system.busy)
    (log : next.log = system.log ++ [.handlerRan ⟨system.runs, call⟩])
    (there : next.serve = .handled
      { pdu := confirmedReply opts call.invokeID result, answers := some ⟨system.runs, call⟩ }) :
    Orderly next := by
  have held : system.serve.holdsToken = true := by rw [here]; rfl
  have waits := orderly.waits_of_holdsToken held
  obtain ⟨opened, noAbort, noClose⟩ := orderly.untouched waits
  have noAbort' : .abort ∉ next.log := by simpa [log] using noAbort
  have noClose' : .close ∉ next.log := by simpa [log] using noClose
  refine ⟨fun _ => busy.trans (orderly.serveToken held), ?_, ?_, ?_, ?_, ?_⟩
  · rw [shutdown, orderly.shutdown_free held]
    exact fun both => nomatch both
  · intro run ran
    rw [log] at ran ⊢
    rcases List.mem_append.mp ran with earlier | latest
    · rcases orderly.accounted run earlier with replied | owes
      · exact .inl (replied.append _)
      · exact (not_owes (by rw [here]; rfl) run owes).elim
    · obtain rfl : run = ⟨system.runs, call⟩ := by simpa using latest
      exact .inr ⟨_, by rw [there]; rfl, rfl, carries_confirmedReply opts call.invokeID result⟩
  · rw [shutdown, waits]
    exact fun past => nomatch past
  · exact fun _ => ⟨closed.trans opened, noAbort', noClose'⟩
  · exact noReplyLost_of_untouched noAbort' noClose'

/-- A PDU handed to the open transport settles what `Serve` owed. -/
theorem serve_send {out : Outgoing} {continues : Bool} (shutdown : next.shutdown = system.shutdown)
    (closed : next.transportClosed = system.transportClosed)
    (here : system.serve = .sending out) (there : next.serve = .sent continues)
    (busy : next.busy = system.busy)
    (log : next.log = system.log ++ [.handed out.answers out.pdu]) : Orderly next := by
  refine ⟨?_, ?_, ?_, ?_, ?_, ?_⟩
  · rw [there]
    exact fun held => nomatch held
  · rw [shutdown, busy]
    exact orderly.shutdownToken
  · intro run ran
    rw [log] at ran ⊢
    have earlier : .handlerRan run ∈ system.log := by simpa using ran
    rcases orderly.accounted run earlier with replied | ⟨owed, going, answers, carries⟩
    · exact .inl (replied.append _)
    · obtain rfl : out = owed := by simpa [here, ServePc.outgoing] using going
      exact .inl ⟨out.pdu, by simp [answers], carries⟩
  · intro _
    rw [there]
    exact ⟨rfl, rfl⟩
  · rw [shutdown, closed, log]
    intro waits
    simpa using orderly.untouched waits
  · rw [log]
    refine orderly.kept.append (fun run same => nomatch same) ?_
    rintro (same | same) <;> exact nomatch same

theorem serve {event : ServeEvent} (allowed : RepliesFirst system (.serve event))
    (taken : serveStep opts handler system event = some next) : Orderly next := by
  obtain ⟨shutdown, closed, cases⟩ := serveStep_cases taken
  rcases cases with ⟨busy, log, owed, token, unsent⟩ | ⟨rfl, owed, free, busy, log, unsent⟩ |
    ⟨call, result, here, busy, log, there⟩ | ⟨out, here, there, busy, log⟩ |
    ⟨out, here, there, busy, log⟩ | ⟨out, continues, here, there, busy, outcome⟩
  · refine orderly.serve_silent shutdown closed log ?_ ?_ ?_ fun _ => ⟨token, unsent⟩
    · rw [token]
      exact fun held => nomatch held
    · rw [shutdown, busy]
      exact orderly.shutdownToken
    · intro run owes
      exact (not_owes owed run owes).elim
  · have waits := allowed.2 rfl
    refine orderly.serve_silent shutdown closed log (fun _ => busy) ?_ ?_ ?_
    · rw [shutdown, ShutdownPc.free_of_waits waits]
      exact fun both => nomatch both
    · intro run owes
      exact (not_owes owed run owes).elim
    · rw [shutdown, waits]
      exact fun past => nomatch past
  · exact orderly.serve_dispatch shutdown closed here busy log there
  · have held : system.serve.holdsToken = true := by rw [here]; rfl
    refine orderly.serve_silent shutdown closed log ?_ ?_ ?_ ?_
    · rw [there]
      exact fun held => nomatch held
    · rw [shutdown, orderly.shutdown_free held]
      exact fun both => nomatch both
    · intro run owes
      exact owes.move (by rw [here, there]; rfl)
    · rw [shutdown, orderly.waits_of_holdsToken held]
      exact fun past => nomatch past
  · refine orderly.serve_silent shutdown closed log ?_ ?_ ?_ ?_
    · rw [there]
      exact fun held => nomatch held
    · rw [shutdown, busy]
      exact orderly.shutdownToken
    · intro run owes
      exact owes.move (by rw [here, there]; rfl)
    · rw [shutdown]
      intro past
      have unsent := (orderly.quiet past).2
      rw [here] at unsent
      exact ⟨by rw [there]; rfl, by rw [there]; exact unsent⟩
  · rcases outcome with ⟨suppressed, log⟩ | ⟨-, log⟩
    · -- only `Shutdown` closes the transport, and it waited until no reply was owed
      have past : system.shutdown.waits = false := by
        by_contra waiting
        have opened := (orderly.untouched (by simpa using waiting)).1
        rw [suppressed] at opened
        exact nomatch opened
      refine orderly.serve_silent shutdown closed log ?_ ?_ ?_ ?_
      · rw [there]
        exact fun held => nomatch held
      · rw [shutdown, busy]
        exact orderly.shutdownToken
      · intro run owes
        exact (not_owes (orderly.quiet past).2 run owes).elim
      · rw [there]
        exact fun _ => ⟨rfl, rfl⟩
    · exact orderly.serve_send shutdown closed here there busy log

/-- An action of `Shutdown` after it has the token: an abort or a close finds every run
replied. -/
theorem shutdown_past (serve : next.serve = system.serve)
    (past : system.shutdown.waits = false) (past' : next.shutdown.waits = false)
    (shutdownToken : next.shutdown.holdsToken = true → next.busy = some .shutdown)
    (log : next.log = system.log ∨ next.log = system.log ++ [.abort] ∨
      next.log = system.log ++ [.close]) : Orderly next := by
  obtain ⟨free, nothing⟩ := orderly.quiet past
  refine ⟨?_, shutdownToken, ?_, ?_, ?_, ?_⟩
  · rw [serve, free]
    exact fun held => nomatch held
  · intro run ran
    rcases log with log | log | log
    · rw [log] at ran ⊢
      exact .inl (orderly.replied_of_past past ran)
    all_goals
      rw [log] at ran ⊢
      exact .inl ((orderly.replied_of_past past (by simpa using ran)).append _)
  · rw [serve]
    exact fun _ => ⟨free, nothing⟩
  · rw [past']
    exact fun waits => nomatch waits
  · rcases log with log | log | log
    · rw [log]
      exact orderly.kept
    all_goals
      rw [log]
      exact orderly.kept.append (fun run same => nomatch same)
        fun _ run ran => orderly.replied_of_past past ran

theorem shutdown {event : ShutdownEvent} (allowed : RepliesFirst system (.shutdown event))
    (taken : shutdownStep system event = some next) : Orderly next := by
  obtain ⟨serve, cases⟩ := shutdownStep_cases taken
  rcases cases with ⟨waits, waits', busy, closed, log⟩ | ⟨rfl, waits, free, busy, past, log⟩ |
    ⟨held, past, busy, log⟩ | ⟨held, done, busy, log⟩
  · refine ⟨?_, ?_, ?_, ?_, ?_, ?_⟩
    · rw [serve, busy]
      exact orderly.serveToken
    · rw [ShutdownPc.free_of_waits waits']
      exact fun both => nomatch both
    · rw [serve, log]
      exact orderly.accounted
    · rw [waits']
      exact fun past => nomatch past
    · rw [closed, log]
      exact fun _ => orderly.untouched waits
    · rw [log]
      exact orderly.kept
  · -- the condition: no reply is owed when `Shutdown` takes the token
    have nothing := allowed.1 rfl
    have calm : system.serve.holdsToken = false := by
      by_contra handling
      have mine := orderly.serveToken (by simpa using handling)
      rw [free] at mine
      exact nomatch mine
    refine ⟨?_, fun _ => busy, ?_, ?_, ?_, ?_⟩
    · rw [serve, calm]
      exact fun held => nomatch held
    · rw [serve, log]
      exact orderly.accounted
    · rw [serve]
      exact fun _ => ⟨calm, nothing⟩
    · rw [past]
      exact fun waits => nomatch waits
    · rw [log]
      exact orderly.kept
  · exact orderly.shutdown_past serve (ShutdownPc.past_of_holdsToken held) past
      (fun _ => busy.trans (orderly.shutdownToken held)) log
  · exact orderly.shutdown_past serve (ShutdownPc.past_of_holdsToken held) (by rw [done]; rfl)
      (by rw [done]; exact fun both => nomatch both) (.inl log)

theorem preserved {event : Event} (allowed : RepliesFirst system event)
    (taken : step opts handler system event = some next) : Orderly next := by
  cases event with
  | serve event => exact orderly.serve allowed taken
  | shutdown event => exact orderly.shutdown allowed taken

end Kept

end Orderly

/-- In every interleaving in which `Shutdown` waits for unsent replies and the handler starts
no request after it, no reply is lost to the abort. -/
theorem shutdown_losesNoReply (opts : MMSOptions) (handler : σ → Call → HandlerResult × σ)
    (handlerState : σ) (events : List Event) (system : System σ)
    (repliesFirst : Machine.AllSteps (step opts handler) RepliesFirst (System.new handlerState)
      events)
    (reached : Machine.run (step opts handler) (System.new handlerState) events = some system) :
    NoReplyLost system.log :=
  (Machine.run_invariant Orderly
    (fun _ _ _ allowed orderly taken => orderly.preserved allowed taken)
    (orderly_new handlerState) repliesFirst reached).kept

/-! ## Runs -/

/-- An Identify request with invoke ID 5. -/
def identifyFrame : Octets := Isostack.encodeDataRequest [0xa0, 5, 2, 1, 5, 0x82, 0]

/-- A handler that answers every request with an empty response. -/
def emptyResponse (state : Unit) (call : Call) : HandlerResult × Unit :=
  (.response (Int64.ofNat call.serviceTag) true [], state)

/-- The actions of a handler, without the receive. -/
def handlerEvents : List Event := [.serve .takeToken, .serve .dispatch, .serve .returnToken]

def replyEvents : List Event := [.serve .lockSend, .serve (.send true), .serve .unlockSend]

def shutdownEvents : List Event :=
  [.shutdown .start, .shutdown .takeToken, .shutdown .checkClosed, .shutdown .lockSend,
    .shutdown .sendAbort, .shutdown .unlockSend, .shutdown .close, .shutdown .returnToken]

/-- `Shutdown` comes after the reply. -/
def replyThenShutdown : List Event :=
  .serve (.receive identifyFrame) :: handlerEvents ++ replyEvents ++ shutdownEvents

/-- `Shutdown` takes the token between the return of the handler and the send of its reply. -/
def shutdownBeforeReply : List Event :=
  .serve (.receive identifyFrame) :: handlerEvents ++ shutdownEvents ++ replyEvents

/-- The handler takes the token that `Shutdown` returned after the abort. -/
def shutdownBeforeHandler : List Event :=
  .serve (.receive identifyFrame) :: shutdownEvents ++ handlerEvents ++ replyEvents

theorem shutdown_losesNoReply_replyThenShutdown :
    ∃ system, Machine.run (step ⟨0⟩ emptyResponse) (System.new ()) replyThenShutdown =
        some system ∧
      (system.log.length = 4 ∧ system.transportClosed = true) ∧ NoReplyLost system.log := by
  have facts : (Machine.run (step ⟨0⟩ emptyResponse) (System.new ()) replyThenShutdown).map
      (fun system => decide (system.log.length = 4 ∧ system.transportClosed = true)) =
      some true := by
    decide +kernel
  obtain ⟨system, reached, same⟩ := Option.map_eq_some_iff.mp facts
  exact ⟨system, reached, of_decide_eq_true same,
    shutdown_losesNoReply ⟨0⟩ emptyResponse () replyThenShutdown system (by decide +kernel) reached⟩

/-- A handler run without its reply before the abort breaks the guarantee. -/
theorem not_noReplyLost {before after : List LogEntry} {run : HandlerRun}
    (ran : .handlerRan run ∈ before ++ .abort :: after)
    (noReply : ∀ pdu, .handed (some run) pdu ∉ before) :
    ¬ NoReplyLost (before ++ .abort :: after) := by
  intro kept
  obtain ⟨pdu, member, -⟩ := kept before .abort after rfl (.inl rfl) run ran
  exact noReply pdu member

/-- Both ways the token lets the abort overtake a reply: the transport is closed, the handler
has run, and its reply was never handed over. -/
theorem shutdown_losesReply :
    (∃ system, Machine.run (step ⟨0⟩ emptyResponse) (System.new ()) shutdownBeforeReply =
        some system ∧ ¬ NoReplyLost system.log) ∧
      ∃ system, Machine.run (step ⟨0⟩ emptyResponse) (System.new ()) shutdownBeforeHandler =
        some system ∧ ¬ NoReplyLost system.log := by
  have first : (Machine.run (step ⟨0⟩ emptyResponse) (System.new ()) shutdownBeforeReply).map
      (·.log) = some ([.handlerRan ⟨0, ⟨5, 2, []⟩⟩] ++ .abort :: [.close]) := by
    decide +kernel
  have second : (Machine.run (step ⟨0⟩ emptyResponse) (System.new ()) shutdownBeforeHandler).map
      (·.log) = some ([] ++ .abort :: [.close, .handlerRan ⟨0, ⟨5, 2, []⟩⟩]) := by
    decide +kernel
  obtain ⟨system, reached, log⟩ := Option.map_eq_some_iff.mp first
  obtain ⟨system', reached', log'⟩ := Option.map_eq_some_iff.mp second
  refine ⟨⟨system, reached, ?_⟩, system', reached', ?_⟩
  · rw [log]
    exact @not_noReplyLost _ _ ⟨0, ⟨5, 2, []⟩⟩ (by simp) (by simp)
  · rw [log']
    exact @not_noReplyLost _ _ ⟨0, ⟨5, 2, []⟩⟩ (by simp) (by simp)

end GoMms.Server
