import GoMms.Invoke.Tracker

/-!
# What the invoke tracker delivers

Every channel handed out by `AllocateWithID` is in exactly one place: in `pending`, or among
the sends of the call that took it out (`Accounted`). The invariant holds in every state of
every interleaving, and with it each channel gets one response, under its own ID, by a send
that never waits. When each registration uses the result of its own `NextID` call and the
counter has not wrapped, an ID that left `pending` never comes back.
-/

namespace GoMms.Invoke

/-! ## Channels -/

/-- Channel `index` was registered under `id`, has been sent exactly `sent`, and holds no more
than that. -/
def Holds (channels : List Channel) (index : Nat) (id : UInt32) (sent : List Response) : Prop :=
  ∃ channel, channels[index]? = some channel ∧ channel.id = id ∧ channel.sent = sent ∧
    channel.buffer.length ≤ sent.length

section Channels

variable {channels : List Channel} {index : Nat} {id : UInt32} {sent : List Response}

theorem Holds.append (holds : Holds channels index id sent) (last : Channel) :
    Holds (channels ++ [last]) index id sent := by
  obtain ⟨channel, found, facts⟩ := holds
  refine ⟨channel, ?_, facts⟩
  rw [List.getElem?_append_left (List.getElem?_eq_some_iff.mp found).1, found]

theorem holds_new (channels : List Channel) (id : UInt32) :
    Holds (channels ++ [⟨id, [], []⟩]) channels.length id [] :=
  ⟨⟨id, [], []⟩, by simp, rfl, rfl, Nat.le_refl _⟩

variable {other : Nat} {channel : Channel}

theorem Holds.set_other (holds : Holds channels index id sent) (different : index ≠ other)
    (channel : Channel) : Holds (channels.set other channel) index id sent := by
  obtain ⟨found, here, facts⟩ := holds
  exact ⟨found, by rw [List.getElem?_set_ne (Ne.symm different), here], facts⟩

/-- Sending appends to the channel's record. -/
theorem Holds.send (holds : Holds channels index id sent) (found : channels[index]? = some channel)
    (response : Response) :
    Holds (channels.set index
      { channel with
        buffer := channel.buffer ++ [response]
        sent := channel.sent ++ [response] }) index id (sent ++ [response]) := by
  obtain ⟨held, here, rfl, rfl, room⟩ := holds
  rw [found] at here
  cases here
  refine ⟨_, List.getElem?_set_self (List.getElem?_eq_some_iff.mp found).1, rfl, rfl, ?_⟩
  simpa using room

/-- Receiving only empties the buffer. -/
theorem Holds.receive (holds : Holds channels index id sent) {first : Response}
    {rest : List Response} (found : channels[other]? = some channel)
    (filled : channel.buffer = first :: rest) :
    Holds (channels.set other { channel with buffer := rest }) index id sent := by
  by_cases same : index = other
  · subst same
    obtain ⟨held, here, rfl, rfl, room⟩ := holds
    rw [found] at here
    cases here
    refine ⟨_, List.getElem?_set_self (List.getElem?_eq_some_iff.mp found).1, rfl, rfl, ?_⟩
    rw [filled, List.length_cons] at room
    exact Nat.le_of_succ_le room
  · exact holds.set_other same _

end Channels

/-! ## The invariant -/

/-- What a send leaves on its channel. -/
def Send.sent (send : Send) : List Response := if send.done then [send.response] else []

/-- The entry a send answers. -/
def Send.entry (send : Send) : Sigma fun _ : UInt32 => Nat := ⟨send.id, send.channel⟩

/-- The entries in `pending` and those taken out of it. -/
def registrations (system : System) : List (Sigma fun _ : UInt32 => Nat) :=
  system.tracker.pending.entries ++ system.sends.map Send.entry

/-- Every channel is in exactly one place, and has been sent what that place says. -/
structure Accounted (system : System) : Prop where
  partition : ((registrations system).map Sigma.snd).Perm (List.range system.channels.length)
  pending_holds : ∀ entry ∈ system.tracker.pending.entries, Holds system.channels entry.2 entry.1 []
  send_holds : ∀ (index : Nat) (send : Send), system.sends[index]? = some send →
    send.response.invokeID = send.id ∧ Holds system.channels send.channel send.id send.sent

theorem accounted_new (maxPending : Int64) : Accounted (System.new maxPending) where
  partition := by simp [registrations, System.new, newTracker]
  pending_holds := by simp [System.new, newTracker]
  send_holds := by simp [System.new]

/-! ## One step -/

section Step

variable {system next : System}

variable {event : Event} {tracker : Tracker}

/-- Everything a step other than `Allocate` can do. -/
theorem step_cases (supported : event ≠ .allocate) (taken : step system event = some next) :
    (event = .nextID ∧ next = { system with
      tracker := (nextID system.tracker).2
      issued := system.issued ++ [(nextID system.tracker).1] }) ∨
    (∃ id, event = .allocateWithID id ∧
      (next = { system with used := system.used ++ [id] } ∨
        id ∉ system.tracker.pending ∧
        next = register { system with used := system.used ++ [id] } id { system.tracker with
          pending := system.tracker.pending.insert id system.channels.length })) ∨
    (∃ id response, (event = .complete id response ∨
        ∃ err, event = .cancel id err ∧ response = ⟨0, 0, [], err⟩) ∧
      next = completeLocked system id response) ∨
    (∃ err, event = .cancelAll err ∧ next = cancelAllLocked system err) ∨
    (∃ index, event = .send index ∧ deliver system index = some next) ∨
    ∃ channel, event = .receive channel ∧ receive system channel = some next := by
  cases event with
  | nextID =>
    simp only [step, Option.some.injEq] at taken
    exact .inl ⟨rfl, taken.symm⟩
  | allocate => exact (supported rfl).elim
  | allocateWithID id =>
    refine .inr (.inl ⟨id, rfl, ?_⟩)
    simp only [step, allocateWithID] at taken
    split at taken
    · exact .inl (Option.some.inj taken).symm
    rename_i tracker ok
    split at ok
    · cases ok
    split at ok
    · cases ok
    rename_i fresh
    cases ok
    exact .inr ⟨fresh, (Option.some.inj taken).symm⟩
  | complete id response =>
    exact .inr (.inr (.inl ⟨id, response, .inl rfl, (Option.some.inj taken).symm⟩))
  | cancel id err =>
    exact .inr (.inr (.inl ⟨id, _, .inr ⟨err, rfl, rfl⟩, (Option.some.inj taken).symm⟩))
  | cancelAll err => exact .inr (.inr (.inr (.inl ⟨err, rfl, (Option.some.inj taken).symm⟩)))
  | send index => exact .inr (.inr (.inr (.inr (.inl ⟨index, rfl, taken⟩))))
  | receive channel => exact .inr (.inr (.inr (.inr (.inr ⟨channel, rfl, taken⟩))))

variable {index : Nat} {id : UInt32}

theorem deliver_eq_some (taken : deliver system index = some next) :
    ∃ send channel, system.sends[index]? = some send ∧
      system.channels[send.channel]? = some channel ∧ send.done = false ∧
      next = { system with
        sends := system.sends.set index { send with done := true }
        channels := system.channels.set send.channel
          { channel with
            buffer := channel.buffer ++ [send.response]
            sent := channel.sent ++ [send.response] } } := by
  simp only [deliver, Option.bind_eq_bind, Option.bind_eq_some_iff] at taken
  obtain ⟨send, sendOk, channel, channelOk, taken⟩ := taken
  split at taken
  · rename_i enabled
    have waiting : send.done = false := by simpa using enabled.1
    exact ⟨send, channel, sendOk, channelOk, waiting, (Option.some.inj taken).symm⟩
  · cases taken

theorem receive_eq_some (taken : receive system index = some next) :
    ∃ channel first rest, system.channels[index]? = some channel ∧
      channel.buffer = first :: rest ∧
      next = { system with
        channels := system.channels.set index { channel with buffer := rest } } := by
  simp only [receive, Option.bind_eq_bind, Option.bind_eq_some_iff] at taken
  obtain ⟨channel, channelOk, taken⟩ := taken
  split at taken
  · cases taken
  rename_i first rest filled
  exact ⟨channel, first, rest, channelOk, filled, (Option.some.inj taken).symm⟩

/-! ## Preservation -/

/-- Taking the entry of `id` out of a map leaves the others. -/
private theorem entries_perm_erase {pending : AList fun _ : UInt32 => Nat} {channel : Nat}
    (found : pending.lookup id = some channel) :
    pending.entries.Perm (⟨id, channel⟩ :: (pending.erase id).entries) := by
  have member : (⟨id, channel⟩ : Sigma fun _ : UInt32 => Nat) ∈ pending.entries :=
    AList.mem_lookup_iff.mp found
  obtain ⟨value, front, rest, _, whole, erased⟩ :=
    List.exists_of_kerase (List.mem_keys_of_mem member)
  have same : channel = value := by
    have other : (⟨id, value⟩ : Sigma fun _ : UInt32 => Nat) ∈ pending.entries := by
      rw [whole]
      simp
    exact pending.nodupKeys.eq_of_mk_mem member other
  subst same
  have remaining : (pending.erase id).entries = front ++ rest := erased
  rw [whole, remaining]
  exact List.perm_middle

theorem registrations_register (fresh : id ∉ system.tracker.pending)
    (inserted : tracker.pending = system.tracker.pending.insert id system.channels.length) :
    registrations (register system id tracker) =
      ⟨id, system.channels.length⟩ :: registrations system := by
  change tracker.pending.entries ++ system.sends.map Send.entry = _
  rw [inserted, AList.entries_insert_of_notMem fresh, List.cons_append]
  rfl

theorem registrations_completeLocked (system : System) (id : UInt32) (response : Response) :
    (registrations (completeLocked system id response)).Perm (registrations system) := by
  unfold completeLocked takeOne
  cases found : system.tracker.pending.lookup id with
  | none => exact List.Perm.refl _
  | some channel =>
    have moved := (entries_perm_erase found).append_right (system.sends.map Send.entry)
    refine List.Perm.trans ?_ moved.symm
    simp only [registrations, List.map_append, List.map_cons, List.map_nil]
    rw [List.cons_append, ← List.append_assoc]
    exact List.perm_append_singleton _ _

theorem registrations_cancelAllLocked (system : System) (err : Option String) :
    (registrations (cancelAllLocked system err)).Perm (registrations system) := by
  have same : system.tracker.pending.entries.map (fun entry =>
      (⟨entry.1, entry.2⟩ : Sigma fun _ : UInt32 => Nat)) = system.tracker.pending.entries :=
    List.map_id _
  simp only [registrations, cancelAllLocked, takeAll, AList.empty_entries, List.nil_append,
    List.map_append, List.map_map]
  change (system.sends.map Send.entry ++ system.tracker.pending.entries.map (fun entry =>
    (⟨entry.1, entry.2⟩ : Sigma fun _ : UInt32 => Nat))).Perm _
  rw [same]
  exact List.perm_append_comm

theorem registrations_deliver (taken : deliver system index = some next) :
    registrations next = registrations system := by
  obtain ⟨send, channel, sendOk, channelOk, waiting, rfl⟩ := deliver_eq_some taken
  obtain ⟨bound, rfl⟩ := List.getElem?_eq_some_iff.mp sendOk
  have inside : index < (system.sends.map Send.entry).length := by simpa using bound
  have kept := List.set_getElem_self inside
  rw [List.getElem_map] at kept
  simp only [registrations, List.map_set]
  exact congrArg _ kept

theorem registrations_receive (taken : receive system index = some next) :
    registrations next = registrations system := by
  obtain ⟨channel, first, rest, found, filled, rfl⟩ := receive_eq_some taken
  rfl

theorem Accounted.register (accounted : Accounted system) (fresh : id ∉ system.tracker.pending)
    (inserted : tracker.pending = system.tracker.pending.insert id system.channels.length) :
    Accounted (register system id tracker) := by
  have length : (Invoke.register system id tracker).channels.length =
      system.channels.length + 1 := by
    simp [Invoke.register]
  refine ⟨?_, ?_, ?_⟩
  · rw [registrations_register fresh inserted, List.map_cons, length, List.range_succ]
    exact (accounted.partition.cons _).trans (List.perm_append_singleton _ _).symm
  · intro entry member
    change entry ∈ tracker.pending.entries at member
    rw [inserted, AList.entries_insert_of_notMem fresh] at member
    rcases List.mem_cons.mp member with rfl | earlier
    · exact holds_new _ _
    · exact (accounted.pending_holds entry earlier).append _
  · intro index send found
    obtain ⟨carries, holds⟩ := accounted.send_holds index send found
    exact ⟨carries, holds.append _⟩

theorem Accounted.completeLocked (accounted : Accounted system) (id : UInt32)
    (response : Response) : Accounted (completeLocked system id response) := by
  have partition := ((registrations_completeLocked system id response).map Sigma.snd).trans
    accounted.partition
  unfold Invoke.completeLocked takeOne at partition ⊢
  cases found : system.tracker.pending.lookup id with
  | none => exact ⟨accounted.partition, accounted.pending_holds, accounted.send_holds⟩
  | some channel =>
    rw [found] at partition
    refine ⟨partition, ?_, ?_⟩
    · intro entry kept
      have before := (entries_perm_erase found).mem_iff.mpr (List.mem_cons_of_mem _ kept)
      exact accounted.pending_holds entry before
    · intro index send here
      rw [List.getElem?_append] at here
      split at here
      · exact accounted.send_holds index send here
      · obtain rfl := List.mem_singleton.mp (List.mem_of_getElem? here)
        exact ⟨rfl, accounted.pending_holds _ (AList.mem_lookup_iff.mp found)⟩

theorem Accounted.cancelAllLocked (accounted : Accounted system) (err : Option String) :
    Accounted (cancelAllLocked system err) := by
  refine ⟨((registrations_cancelAllLocked system err).map Sigma.snd).trans accounted.partition,
    ?_, ?_⟩
  · intro entry member
    simp [Invoke.cancelAllLocked, takeAll] at member
  · intro index send here
    simp only [Invoke.cancelAllLocked, takeAll] at here
    rw [List.getElem?_append] at here
    split at here
    · exact accounted.send_holds index send here
    · rw [List.getElem?_map, Option.map_eq_some_iff] at here
      obtain ⟨entry, found, rfl⟩ := here
      exact ⟨rfl, accounted.pending_holds entry (List.mem_of_getElem? found)⟩

theorem Accounted.deliver (accounted : Accounted system)
    (taken : deliver system index = some next) : Accounted next := by
  have partition := accounted.partition
  rw [← registrations_deliver taken] at partition
  obtain ⟨send, channel, sendOk, channelOk, waiting, rfl⟩ := deliver_eq_some taken
  have nodup : ((registrations system).map Sigma.snd).Nodup :=
    accounted.partition.nodup_iff.mpr List.nodup_range
  simp only [registrations, List.map_append, List.map_map] at nodup
  refine ⟨by simpa only [List.length_set] using partition, ?_, ?_⟩
  · intro entry member
    refine (accounted.pending_holds entry member).set_other ?_ _
    intro same
    exact (List.disjoint_of_nodup_append nodup) (List.mem_map_of_mem member)
      (same ▸ List.mem_map_of_mem (List.mem_of_getElem? sendOk))
  · intro other found here
    by_cases same : other = index
    · subst same
      rw [List.getElem?_set_self (List.getElem?_eq_some_iff.mp sendOk).1] at here
      cases here
      obtain ⟨carries, holds⟩ := accounted.send_holds _ send sendOk
      have before : send.sent = [] := by simp [Send.sent, waiting]
      rw [before] at holds
      exact ⟨carries, holds.send channelOk send.response⟩
    · rw [List.getElem?_set_ne (Ne.symm same)] at here
      obtain ⟨carries, holds⟩ := accounted.send_holds other found here
      refine ⟨carries, holds.set_other ?_ _⟩
      intro clash
      -- two sends on one channel would register it twice
      have bound : other < (system.sends.map (Sigma.snd ∘ Send.entry)).length := by
        rw [List.length_map]
        exact (List.getElem?_eq_some_iff.mp here).1
      refine same ((List.getElem?_inj bound nodup.of_append_right).mp ?_)
      simp [here, sendOk, Send.entry, clash]

theorem Accounted.receive (accounted : Accounted system)
    (taken : receive system index = some next) : Accounted next := by
  obtain ⟨channel, first, rest, found, filled, rfl⟩ := receive_eq_some taken
  refine ⟨?_, ?_, ?_⟩
  · simpa only [registrations, List.length_set] using accounted.partition
  · intro entry member
    exact (accounted.pending_holds entry member).receive found filled
  · intro other send here
    obtain ⟨carries, holds⟩ := accounted.send_holds other send here
    exact ⟨carries, holds.receive found filled⟩

theorem Accounted.preserved (accounted : Accounted system) (supported : event ≠ .allocate)
    (taken : step system event = some next) : Accounted next := by
  rcases step_cases supported taken with ⟨_, rfl⟩ | ⟨id, _, rfl | ⟨fresh, rfl⟩⟩ |
    ⟨id, response, _, rfl⟩ | ⟨err, _, rfl⟩ | ⟨index, _, delivered⟩ | ⟨channel, _, received⟩
  · exact ⟨accounted.partition, accounted.pending_holds, accounted.send_holds⟩
  · exact ⟨accounted.partition, accounted.pending_holds, accounted.send_holds⟩
  · have same : Accounted { system with used := system.used ++ [id] } :=
      ⟨accounted.partition, accounted.pending_holds, accounted.send_holds⟩
    exact same.register fresh rfl
  · exact accounted.completeLocked id response
  · exact accounted.cancelAllLocked err
  · exact accounted.deliver delivered
  · exact accounted.receive received

end Step

/-! ## IDs that do not come back -/

def Event.isNextID : Event → Bool
  | .nextID => true
  | _ => false

/-- A registration uses the result of a `NextID` call that no earlier registration used. -/
def UsesOwnID (system : System) : Event → Prop
  | .allocateWithID id => system.used.count id < system.issued.count id
  | _ => True

instance (system : System) (event : Event) : Decidable (UsesOwnID system event) := by
  cases event <;> unfold UsesOwnID <;> infer_instance

/-- The counter has issued `1, 2, …` and every registration stands for an issued ID of its
own. -/
structure Fresh (past : List Event) (system : System) : Prop where
  issued_length : system.issued.length = past.countP Event.isNextID
  issued_eq : system.issued.length < 2 ^ 32 - 1 →
    system.tracker.nextID.toNat = system.issued.length ∧
      system.issued = (List.range system.issued.length).map fun index => UInt32.ofNat (index + 1)
  used_le : ∀ id, system.used.count id ≤ system.issued.count id
  registered_le : ∀ id, ((registrations system).map Sigma.fst).count id ≤ system.used.count id

theorem fresh_new (maxPending : Int64) : Fresh [] (System.new maxPending) where
  issued_length := rfl
  issued_eq := fun _ => ⟨rfl, rfl⟩
  used_le := fun _ => Nat.le_refl _
  registered_le := fun _ => Nat.le_refl _

section Fresh

variable {system next : System} {past : List Event}

variable {event : Event} {id : UInt32}

/-- A step that neither issues nor uses an ID and moves registrations around. -/
private theorem Fresh.move (fresh : Fresh past system) (other : event.isNextID = false)
    (issued : next.issued = system.issued) (used : next.used = system.used)
    (counter : next.tracker.nextID = system.tracker.nextID)
    (moved : (registrations next).Perm (registrations system)) : Fresh (past ++ [event]) next where
  issued_length := by simp [issued, fresh.issued_length, other]
  issued_eq := by simpa only [issued, counter] using fresh.issued_eq
  used_le := by simpa only [issued, used] using fresh.used_le
  registered_le := fun id => by
    rw [(moved.map Sigma.fst).count_eq id, used]
    exact fresh.registered_le id

private theorem Fresh.nextID (fresh : Fresh past system) : Fresh (past ++ [.nextID])
    { system with
      tracker := (nextID system.tracker).2
      issued := system.issued ++ [(Invoke.nextID system.tracker).1] } where
  issued_length := by simp [fresh.issued_length, Event.isNextID]
  issued_eq := by
    intro few
    simp only [List.length_append, List.length_singleton] at few ⊢
    obtain ⟨counter, issued⟩ := fresh.issued_eq (by omega)
    have small : system.tracker.nextID.toNat + 1 < 2 ^ 32 := by omega
    have sum : (system.tracker.nextID + 1).toNat = system.tracker.nextID.toNat + 1 := by
      rw [UInt32.toNat_add]
      exact Nat.mod_eq_of_lt small
    have nonzero : system.tracker.nextID + 1 ≠ 0 := by
      intro zero
      rw [zero] at sum
      exact absurd sum (by simp)
    have value : (Invoke.nextID system.tracker).1 = system.tracker.nextID + 1 := by
      simp only [Invoke.nextID, nonzero, ↓reduceIte]
    have stored : (Invoke.nextID system.tracker).2.nextID = system.tracker.nextID + 1 := by
      simp only [Invoke.nextID, nonzero, ↓reduceIte]
    refine ⟨by rw [stored, sum, counter], ?_⟩
    rw [List.range_succ, List.map_append, ← issued, value, List.map_singleton, ← counter, ← sum,
      UInt32.ofNat_toNat]
  used_le := fun id => (fresh.used_le id).trans (by rw [List.count_append]; omega)
  registered_le := fresh.registered_le

private theorem Fresh.refused (fresh : Fresh past system)
    (own : UsesOwnID system (.allocateWithID id)) :
    Fresh (past ++ [.allocateWithID id]) { system with used := system.used ++ [id] } where
  issued_length := by simp [fresh.issued_length, Event.isNextID]
  issued_eq := fresh.issued_eq
  used_le := fun other => by
    have before := fresh.used_le other
    rw [List.count_append, List.count_singleton]
    by_cases same : id = other
    · subst same
      have room : system.used.count id < system.issued.count id := own
      simpa using room
    · simpa [same] using before
  registered_le := fun other =>
    (fresh.registered_le other).trans (by rw [List.count_append]; omega)

private theorem Fresh.registered (fresh : Fresh past system)
    (own : UsesOwnID system (.allocateWithID id)) (absent : id ∉ system.tracker.pending) :
    Fresh (past ++ [.allocateWithID id])
      (register { system with used := system.used ++ [id] } id { system.tracker with
        pending := system.tracker.pending.insert id system.channels.length }) := by
  obtain ⟨length, counter, used, _⟩ := fresh.refused own
  refine ⟨length, counter, used, fun other => ?_⟩
  have here : registrations (register { system with used := system.used ++ [id] } id
      { system.tracker with
        pending := system.tracker.pending.insert id system.channels.length }) =
      ⟨id, system.channels.length⟩ :: registrations system :=
    registrations_register absent rfl
  rw [here, List.map_cons, List.count_cons]
  change _ ≤ (system.used ++ [id]).count other
  rw [List.count_append, List.count_singleton]
  exact Nat.add_le_add_right (fresh.registered_le other) _

theorem Fresh.preserved (fresh : Fresh past system) (supported : event ≠ .allocate)
    (own : UsesOwnID system event) (taken : step system event = some next) :
    Fresh (past ++ [event]) next := by
  rcases step_cases supported taken with ⟨rfl, rfl⟩ | ⟨id, rfl, rfl | ⟨absent, rfl⟩⟩ |
    ⟨id, response, kind, rfl⟩ | ⟨err, rfl, rfl⟩ | ⟨index, rfl, delivered⟩ | ⟨channel, rfl, received⟩
  · exact fresh.nextID
  · exact fresh.refused own
  · exact fresh.registered own absent
  · have other : event.isNextID = false := by
      rcases kind with rfl | ⟨err, rfl, _⟩ <;> rfl
    refine fresh.move other ?_ ?_ ?_ (registrations_completeLocked system id response)
    all_goals
      unfold completeLocked takeOne
      cases system.tracker.pending.lookup id <;> rfl
  · exact fresh.move rfl rfl rfl rfl (registrations_cancelAllLocked system err)
  · have same := registrations_deliver delivered
    obtain ⟨_, _, _, _, _, rfl⟩ := deliver_eq_some delivered
    exact fresh.move rfl rfl rfl rfl (List.Perm.of_eq same)
  · have same := registrations_receive received
    obtain ⟨_, _, _, _, _, rfl⟩ := receive_eq_some received
    exact fresh.move rfl rfl rfl rfl (List.Perm.of_eq same)

/-- While the counter has not wrapped, no ID is registered twice. -/
theorem Fresh.nodup (fresh : Fresh past system) (few : past.countP Event.isNextID < 2 ^ 32 - 1) :
    ((registrations system).map Sigma.fst).Nodup := by
  rw [← fresh.issued_length] at few
  obtain ⟨_, issued⟩ := fresh.issued_eq few
  have distinct : system.issued.Nodup := by
    rw [issued]
    refine List.Nodup.map_on ?_ List.nodup_range
    intro first firstIn second secondIn same
    have values := congrArg UInt32.toNat same
    rw [List.mem_range] at firstIn secondIn
    rw [UInt32.toNat_ofNat', UInt32.toNat_ofNat', Nat.mod_eq_of_lt (by omega),
      Nat.mod_eq_of_lt (by omega)] at values
    omega
  rw [List.nodup_iff_count_le_one]
  intro id
  calc ((registrations system).map Sigma.fst).count id
      ≤ system.used.count id := fresh.registered_le id
    _ ≤ system.issued.count id := fresh.used_le id
    _ ≤ 1 := List.nodup_iff_count_le_one.mp distinct id

end Fresh

/-! ## Runs -/

variable {system : System}

/-- A step keeps a pending entry or takes it out for a call of its own, which then owes the
entry a send. -/
theorem pending_step {next : System} {event : Event} {id : UInt32} {channel : Nat}
    (supported : event ≠ .allocate) (taken : step system event = some next)
    (found : system.tracker.pending.lookup id = some channel) :
    next.tracker.pending.lookup id = some channel ∨
      next.tracker.pending.lookup id = none ∧
        ∃ send ∈ next.sends, send.call = system.calls.length ∧ send.entry = ⟨id, channel⟩ := by
  rcases step_cases supported taken with ⟨_, rfl⟩ | ⟨other, _, rfl | ⟨absent, rfl⟩⟩ |
    ⟨other, response, _, rfl⟩ | ⟨err, _, rfl⟩ | ⟨index, _, delivered⟩ | ⟨index, _, received⟩
  · exact .inl found
  · exact .inl found
  · refine .inl ?_
    have different : id ≠ other := by
      rintro rfl
      rw [AList.lookup_eq_none.mpr absent] at found
      cases found
    exact (AList.lookup_insert_ne different).trans found
  · unfold completeLocked takeOne
    cases taken : system.tracker.pending.lookup other with
    | none => exact .inl found
    | some value =>
      by_cases same : id = other
      · subst same
        rw [found] at taken
        cases taken
        exact .inr ⟨AList.lookup_erase _ _, _, List.mem_append_right _ List.mem_cons_self, rfl, rfl⟩
      · exact .inl ((AList.lookup_erase_ne same).trans found)
  · refine .inr ⟨AList.lookup_empty _, _, List.mem_append_right _
      (List.mem_map_of_mem (AList.mem_lookup_iff.mp found)), rfl, rfl⟩
  · obtain ⟨_, _, _, _, _, rfl⟩ := deliver_eq_some delivered
    exact .inl found
  · obtain ⟨_, _, _, _, _, rfl⟩ := receive_eq_some received
    exact .inl found

/-- What the callers can rely on in one state of a run, whatever step comes next. -/
structure Delivers (system : System) : Prop where
  at_most_once : ∀ channel ∈ system.channels, channel.sent.length ≤ 1
  own_id : ∀ channel ∈ system.channels, ∀ response ∈ channel.sent, response.invokeID = channel.id
  never_blocks : ∀ (index : Nat) (send : Send), system.sends[index]? = some send →
    send.done = false → ∃ next, step system (.send index) = some next
  never_replaced : ∀ (event : Event) (next : System), event ≠ .allocate →
    step system event = some next → ∀ id first second,
    system.tracker.pending.lookup id = some first →
    next.tracker.pending.lookup id = some second → second = first
  removed_owed : ∀ (event : Event) (next : System), event ≠ .allocate →
    step system event = some next → ∀ id channel,
    system.tracker.pending.lookup id = some channel → next.tracker.pending.lookup id = none →
    ∃ send ∈ next.sends, send.call = system.calls.length ∧ send.entry = ⟨id, channel⟩
  finished : ∀ call, (∀ send ∈ system.sends, send.call = call → send.done = true) →
    ∀ send ∈ system.sends, send.call = call →
    ∃ channel, system.channels[send.channel]? = some channel ∧ channel.sent = [send.response]

/-- A channel is pending with nothing sent, or holds what its one send has left on it. -/
theorem Accounted.channel_cases (accounted : Accounted system) {channel : Channel}
    (member : channel ∈ system.channels) :
    channel.sent = [] ∨ ∃ response, channel.sent = [response] ∧ response.invokeID = channel.id := by
  obtain ⟨index, found⟩ := List.mem_iff_getElem?.mp member
  have inside : index ∈ (registrations system).map Sigma.snd := by
    rw [accounted.partition.mem_iff, List.mem_range]
    exact (List.getElem?_eq_some_iff.mp found).1
  simp only [registrations, List.map_append, List.mem_append, List.mem_map] at inside
  rcases inside with ⟨entry, pending, rfl⟩ | ⟨_, ⟨send, owed, rfl⟩, rfl⟩
  · obtain ⟨held, here, _, nothing, _⟩ := accounted.pending_holds entry pending
    rw [found] at here
    cases here
    exact .inl nothing
  · obtain ⟨position, sendOk⟩ := List.mem_iff_getElem?.mp owed
    obtain ⟨carries, held, here, own, left, _⟩ := accounted.send_holds position send sendOk
    have same : some channel = some held := found.symm.trans here
    cases same
    unfold Send.sent at left
    split at left
    · exact .inr ⟨send.response, left, carries.trans own.symm⟩
    · exact .inl left

theorem Accounted.delivers (accounted : Accounted system) : Delivers system where
  at_most_once := by
    intro channel member
    rcases accounted.channel_cases member with none | ⟨response, one, _⟩
    · simp [none]
    · simp [one]
  own_id := by
    intro channel member response sent
    rcases accounted.channel_cases member with none | ⟨only, one, own⟩
    · simp [none] at sent
    · rw [one, List.mem_singleton] at sent
      rw [sent, own]
  never_blocks := by
    intro index send found waiting
    obtain ⟨_, channel, here, _, left, room⟩ := accounted.send_holds index send found
    have empty : channel.buffer.length < capacity := by
      simp only [Send.sent, waiting, Bool.false_eq_true, ↓reduceIte, List.length_nil] at room
      simpa [capacity] using room
    have enabled : (Invoke.deliver system index).isSome := by
      simp [Invoke.deliver, found, here, waiting, empty]
    exact Option.isSome_iff_exists.mp enabled
  never_replaced := by
    intro event next supported taken id first second before after
    rcases pending_step supported taken before with kept | ⟨removed, _⟩
    · rw [kept] at after
      exact (Option.some.inj after).symm
    · rw [removed] at after
      cases after
  removed_owed := by
    intro event next supported taken id channel before after
    rcases pending_step supported taken before with kept | ⟨_, owed⟩
    · rw [kept] at after
      cases after
    · exact owed
  finished := by
    intro call all send member own
    obtain ⟨position, found⟩ := List.mem_iff_getElem?.mp member
    obtain ⟨_, channel, here, _, left, _⟩ := accounted.send_holds position send found
    refine ⟨channel, here, ?_⟩
    simpa only [Send.sent, all send member own, ↓reduceIte] using left

/-- An ID that left `pending` is unknown from then on, so a late response is refused. -/
theorem Fresh.complete_refused {past : List Event} (fresh : Fresh past system)
    (few : past.countP Event.isNextID < 2 ^ 32 - 1) {send : Send} (removed : send ∈ system.sends)
    (response : Response) :
    ∃ next, step system (.complete send.id response) = some next ∧
      next.calls = system.calls ++ [some false] ∧ next.sends = system.sends ∧
      next.channels = system.channels := by
  have nodup := fresh.nodup few
  simp only [registrations, List.map_append, List.map_map] at nodup
  have absent : system.tracker.pending.lookup send.id = none := by
    rw [AList.lookup_eq_none, AList.mem_keys]
    intro pending
    exact List.disjoint_of_nodup_append nodup pending (List.mem_map_of_mem removed)
  exact ⟨_, rfl, by simp [completeLocked, takeOne, absent]⟩

theorem tracker_delivers (maxPending : Int64) (events : List Event) (system : System)
    (supported : ∀ event ∈ events, event ≠ .allocate)
    (reached : Machine.run step (System.new maxPending) events = some system) :
    Delivers system ∧
      (Machine.AllSteps step UsesOwnID (System.new maxPending) events →
        events.countP Event.isNextID < 2 ^ 32 - 1 →
        ∀ send ∈ system.sends, ∀ response, ∃ next,
          step system (.complete send.id response) = some next ∧
          next.calls = system.calls ++ [some false] ∧ next.sends = system.sends ∧
          next.channels = system.channels) := by
  have steps := @Machine.AllSteps.of_events _ _ step _ _ supported (System.new maxPending)
  refine ⟨?_, fun own few send removed response => ?_⟩
  · have accounted : Accounted system := Machine.run_invariant Accounted
      (fun _ _ _ allowed before taken => before.preserved allowed taken) (accounted_new maxPending)
      steps reached
    exact accounted.delivers
  · have fresh : Fresh ([] ++ events) system := Machine.run_invariant_history Fresh
      (fun _ _ _ _ allowed before taken => before.preserved allowed.1 allowed.2 taken) []
      (fresh_new maxPending) (steps.and own) reached
    exact fresh.complete_refused few removed response

/-- Two requests, one answered and one cancelled with the rest. -/
def answeredAndCancelled : List Event :=
  [.nextID, .allocateWithID 1, .nextID, .allocateWithID 2, .complete 1 ⟨1, 2, [0xa1], none⟩,
    .cancelAll (some "closed"), .send 1, .send 0, .receive 0]

theorem tracker_delivers_answeredAndCancelled :
    ∃ system, Machine.run step (System.new 2) answeredAndCancelled = some system ∧
      system.sends.length = 2 ∧ Delivers system ∧
      ∀ send ∈ system.sends, ∀ response, ∃ next,
        step system (.complete send.id response) = some next ∧
        next.calls = system.calls ++ [some false] ∧ next.sends = system.sends ∧
        next.channels = system.channels := by
  have two :
      (Machine.run step (System.new 2) answeredAndCancelled).map (·.sends.length) = some 2 := by
    decide +kernel
  obtain ⟨system, reached, length⟩ := Option.map_eq_some_iff.mp two
  have supported : ∀ event ∈ answeredAndCancelled, event ≠ .allocate := by
    simp [answeredAndCancelled]
  obtain ⟨delivers, refused⟩ := tracker_delivers 2 answeredAndCancelled system supported reached
  exact ⟨system, reached, length, delivers, refused (by decide +kernel) (by decide +kernel)⟩

end GoMms.Invoke
