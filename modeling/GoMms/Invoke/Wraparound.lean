import GoMms.Invoke.Delivery

/-!
# Allocation when the counter wraps

`Allocate` counts round the nonzero 32-bit values and does not look whether the ID is pending.
Where it alone registers requests, IDs follow the order of creation, and a request is overwritten
exactly when it has been pending for a whole number of rounds.
-/

namespace GoMms.Invoke

/-- The number of IDs before the counter repeats. -/
def period : Nat := 2 ^ 32 - 1

/-- The ID of a channel by the order of creation. -/
def cyclicID (channel : Nat) : UInt32 := UInt32.ofNat (channel % period + 1)

theorem toNat_cyclicID (channel : Nat) : (cyclicID channel).toNat = channel % period + 1 := by
  have inside : channel % period < period := Nat.mod_lt _ (by decide)
  exact (UInt32.toNat_ofNat' ..).trans (Nat.mod_eq_of_lt (Nat.succ_lt_succ inside))

theorem cyclicID_eq_iff (first second : Nat) :
    cyclicID first = cyclicID second ↔ first % period = second % period := by
  rw [← UInt32.toNat_inj, toNat_cyclicID, toNat_cyclicID, Nat.add_right_cancel_iff]

theorem nextID_nextID {tracker : Tracker} {channel : Nat}
    (counter : (nextID tracker).1 = cyclicID channel) :
    (nextID (nextID tracker).2).1 = cyclicID (channel + 1) := by
  have value := toNat_cyclicID channel
  change (if (nextID tracker).1 + 1 = 0 then 1 else (nextID tracker).1 + 1) = _
  rw [counter, ← UInt32.toNat_inj, toNat_cyclicID, apply_ite UInt32.toNat]
  simp only [← UInt32.toNat_inj, UInt32.toNat_add, value, UInt32.toNat_one, UInt32.toNat_zero]
  unfold period
  split <;> omega

/-! ## The limit -/

variable {system next : System}

/-- A step registers a channel below the limit, or adds nothing. -/
theorem step_tracker {event : Event} (taken : step system event = some next) :
    next.tracker.maxPending = system.tracker.maxPending ∧
    ((event = .allocate ∨ ∃ id, event = .allocateWithID id) ∧ ¬limitReached system.tracker ∧
      (∃ id, next.tracker.pending = system.tracker.pending.insert id system.channels.length) ∨
    next.tracker.pending.entries.Sublist system.tracker.pending.entries ∧
      next.channels.length = system.channels.length ∧
      (event ≠ .nextID → next.tracker.nextID = system.tracker.nextID)) := by
  have removed (id : UInt32) : (system.tracker.pending.erase id).entries.Sublist
      system.tracker.pending.entries := List.kerase_sublist _ _
  cases event <;> simp only [step, deliver, receive, completeLocked, cancelAllLocked, takeOne,
    takeAll, allocate, allocateWithID, nextID, register] at taken <;>
    grind [AList.empty_entries]

/-- Whatever the interleaving, no more requests are pending than the limit allows. -/
theorem pending_le_limit {maxPending : Int64} (limited : 0 < maxPending.toInt) (events : List Event)
    (reached : Machine.run step (System.new maxPending) events = some system) :
    system.tracker.pending.entries.length ≤ maxPending.toInt := by
  have kept := Machine.run_invariant
    (fun system => system.tracker.maxPending = maxPending ∧
      system.tracker.pending.entries.length ≤ maxPending.toInt)
    (fun system event next _ before taken => ?_) ⟨rfl, limited.le⟩
    (Machine.AllSteps.of_events (fun _ _ => trivial) _) reached
  · exact kept.2
  obtain ⟨same, ⟨_, room, id, inserted⟩ | ⟨entries, _⟩⟩ := step_tracker taken
  · have grows : next.tracker.pending.entries.length ≤ system.tracker.pending.entries.length + 1 :=
      inserted ▸ Nat.succ_le_succ (List.kerase_sublist _ _).length_le
    have size : system.tracker.pending.keys.length = system.tracker.pending.entries.length :=
      List.length_map _
    rw [limitReached, before.1, size] at room
    exact ⟨same.trans before.1, by omega⟩
  · exact ⟨same.trans before.1, le_trans (Int.ofNat_le.mpr entries.length_le) before.2⟩

/-- Three requests and one over the limit. -/
def threeRequests : List Event :=
  [.allocate, .allocate, .complete 2 ⟨2, 1, [], none⟩, .send 0, .allocate, .allocate]

theorem pending_le_limit_threeRequests :
    ∃ system, Machine.run step (System.new 2) threeRequests = some system ∧
      system.tracker.pending.entries.length ≤ 2 := by
  have some : (Machine.run step (System.new 2) threeRequests).isSome := by decide +kernel
  obtain ⟨system, reached⟩ := Option.isSome_iff_exists.mp some
  exact ⟨system, reached, Int.ofNat_le.mp (pending_le_limit (by decide) _ reached)⟩

/-! ## Numbered channels -/

/-- No request has been pending for a whole number of rounds. -/
def Young (system : System) : Prop :=
  ∀ entry ∈ system.tracker.pending.entries, entry.2 % period ≠ system.channels.length % period

/-- Requests are registered by `Allocate` alone, while nothing pending is whole rounds old. -/
def InRound (system : System) : Event → Prop
  | .allocate => Young system
  | .nextID | .allocateWithID _ => False
  | _ => True

instance (system : System) : DecidablePred (InRound system)
  | .allocate => List.decidableBAll _ _
  | .nextID | .allocateWithID _ => instDecidableFalse
  | .complete .. | .cancel .. | .cancelAll _ | .send _ | .receive _ => instDecidableTrue

structure Numbered (system : System) : Prop where
  accounted : Accounted system
  counter : (nextID system.tracker).1 = cyclicID system.channels.length
  named : ∀ entry ∈ system.tracker.pending.entries, entry.1 = cyclicID entry.2

theorem numbered_new (maxPending : Int64) : Numbered (System.new maxPending) :=
  ⟨accounted_new maxPending, rfl, by simp [System.new, newTracker]⟩

theorem Numbered.fresh_iff (numbered : Numbered system) :
    (nextID system.tracker).1 ∉ system.tracker.pending ↔ Young system := by
  have named := numbered.named
  rw [numbered.counter, AList.mem_keys, AList.keys, List.keys, List.mem_map]
  grind [Young, cyclicID_eq_iff]

theorem step_allocate (system : System) : step system .allocate =
    some (if limitReached system.tracker then system else
      register system (nextID system.tracker).1 { (nextID system.tracker).2 with
        pending := system.tracker.pending.insert (nextID system.tracker).1
          system.channels.length }) := by
  simp only [step, allocate]
  split_ifs <;> rfl

theorem Numbered.allocate (numbered : Numbered system) (young : Young system)
    (taken : step system .allocate = some next) : Numbered next := by
  rw [step_allocate, Option.some.injEq] at taken
  split_ifs at taken
  · exact taken ▸ numbered
  subst taken
  have fresh := numbered.fresh_iff.mpr young
  refine ⟨numbered.accounted.register fresh rfl, ?_, fun entry member => ?_⟩
  · have length := @List.length_append _ system.channels [⟨(nextID system.tracker).1, [], []⟩]
    exact (nextID_nextID numbered.counter).trans (congrArg cyclicID length.symm)
  · rcases List.mem_cons.mp member with rfl | earlier
    · exact numbered.counter
    · exact numbered.named entry ((List.kerase_sublist _ _).subset earlier)

theorem Numbered.preserved {event : Event} (numbered : Numbered system)
    (inRound : InRound system event) (taken : step system event = some next) : Numbered next := by
  by_cases allocates : event = .allocate
  · subst allocates
    exact numbered.allocate inRound taken
  have accounted := numbered.accounted.preserved allocates taken
  obtain ⟨_, ⟨registers, _⟩ | ⟨entries, length, counter⟩⟩ := step_tracker taken
  · grind [InRound]
  · refine ⟨accounted, ?_, fun entry member => numbered.named entry (entries.subset member)⟩
    rw [length, ← numbered.counter]
    simp only [nextID, counter (by rintro rfl; exact inRound.elim)]

/-- A channel that was handed out is pending or owed a response. -/
theorem Numbered.placed (numbered : Numbered system) {channel : Nat}
    (created : channel < system.channels.length) :
    system.tracker.pending.lookup (cyclicID channel) = some channel ∨
      ∃ send ∈ system.sends, send.channel = channel := by
  have placed := numbered.accounted.partition.mem_iff.mpr (List.mem_range.mpr created)
  simp only [registrations, List.map_append, List.mem_append, List.mem_map] at placed
  rcases placed with ⟨entry, pending, rfl⟩ | ⟨_, ⟨send, owed, rfl⟩, rfl⟩
  · exact .inl (AList.mem_lookup_iff.mpr (numbered.named entry pending ▸ pending))
  · exact .inr ⟨send, owed, rfl⟩

/-! ## Runs -/

/-- The next ID is pending exactly when a request is whole rounds old; until then each channel is
pending or owed its one response. -/
theorem allocate_never_displaces (maxPending : Int64) (events : List Event)
    (inRound : Machine.AllSteps step InRound (System.new maxPending) events)
    (reached : Machine.run step (System.new maxPending) events = some system) :
    (∀ id tracker, allocate system.tracker system.channels.length = .ok (id, tracker) →
      id ≠ 0 ∧ (id ∉ system.tracker.pending ↔ Young system)) ∧
    Delivers system ∧
    ∀ channel < system.channels.length,
      system.tracker.pending.lookup (cyclicID channel) = some channel ∨
        ∃ send ∈ system.sends, send.channel = channel := by
  have numbered : Numbered system := Machine.run_invariant Numbered
    (fun _ _ _ allowed before taken => before.preserved allowed taken) (numbered_new maxPending)
    inRound reached
  refine ⟨fun id tracker ok => ?_, numbered.accounted.delivers, fun _ => numbered.placed⟩
  unfold allocate at ok
  split_ifs at ok
  cases ok
  refine ⟨fun zero => ?_, numbered.fresh_iff⟩
  have value := toNat_cyclicID system.channels.length
  rw [← numbered.counter] at value
  exact Nat.succ_ne_zero _ (value.symm.trans (congrArg UInt32.toNat zero))

theorem allocate_never_displaces_threeRequests :
    ∃ system, Machine.run step (System.new 2) threeRequests = some system ∧
      system.channels.length = 3 ∧ Delivers system := by
  have three : (Machine.run step (System.new 2) threeRequests).map (·.channels.length) = some 3 := by
    decide +kernel
  obtain ⟨system, reached, length⟩ := Option.map_eq_some_iff.mp three
  exact ⟨system, reached, length, (allocate_never_displaces 2 _ (by decide +kernel) reached).2.1⟩

theorem numbered_replicate (count : Nat) (within : count ≤ period) :
    ∃ system, Machine.run step (System.new 0) (List.replicate count .allocate) = some system ∧
      Numbered system ∧ system.channels.length = count ∧ system.sends = [] ∧
      system.tracker.maxPending = 0 := by
  induction count with
  | zero => exact ⟨_, rfl, numbered_new 0, rfl, rfl, rfl⟩
  | succ count ih =>
    obtain ⟨system, reached, numbered, length, sends, unlimited⟩ := ih (Nat.le_of_succ_le within)
    have young : Young system := by
      intro entry member
      have earlier := List.mem_range.mp (numbered.accounted.partition.mem_iff.mp
        (List.mem_map_of_mem (List.mem_append_left _ member)))
      rw [Nat.mod_eq_of_lt (by omega), Nat.mod_eq_of_lt (by omega)]
      exact earlier.ne
    have taken := step_allocate system
    rw [if_neg (by simp [limitReached, unlimited])] at taken
    rw [List.replicate_succ']
    exact ⟨_, Machine.run_snoc reached taken, numbered.allocate young taken,
      by simp [register, length], sends, unlimited⟩

/-- With a round of requests pending, the next one takes the ID of the first. -/
theorem allocate_displaces_first :
    ∃ system next,
      Machine.run step (System.new 0) (List.replicate period .allocate) = some system ∧
      step system .allocate = some next ∧ system.tracker.pending.lookup 1 = some 0 ∧
      next.tracker.pending.lookup 1 = some period ∧ next.sends = [] := by
  obtain ⟨system, reached, numbered, length, sends, unlimited⟩ :=
    numbered_replicate period le_rfl
  have around : (nextID system.tracker).1 = 1 := by
    rw [numbered.counter, length]
    rfl
  have taken := step_allocate system
  rw [if_neg (by simp [limitReached, unlimited]), around, length] at taken
  refine ⟨system, _, reached, taken, ?_, AList.lookup_insert _, sends⟩
  have created : 0 < system.channels.length := length ▸ by decide
  exact (numbered.placed created).resolve_right (by simp [sends])

end GoMms.Invoke
