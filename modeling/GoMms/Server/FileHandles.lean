import GoMms.Pdu.FileRoundTrip
import GoMms.Server.File

/-!
# Accounting for file handles

Whatever a request asks and a provider answers, the handlers do one of six things to the table and
the log (`FileStep`). Over a run of requests the table holds exactly the handles that a replay of
the log holds, each under the ID that was allocated for it, so that closing them all at the end
leaves none open (`fileHandles_accounted`). A single failed FileOpen is less careful: it leaves
nothing behind exactly if it did not fail at encoding the size of the file
(`failedOpen_leavesNothing_iff`).
-/

namespace GoMms.Server

open Berutil Pdu Serverconn Tracing Ledger

variable {State Handle : Type}

/-! ## What a request does -/

/-- One request: the calls and notes it adds to the log, and the table it leaves. -/
inductive FileStep (table : Option (FrsmTable Handle)) :
    List (Use Handle (FileNote Handle)) → Option (FrsmTable Handle) → Prop
  | idle : FileStep table [] table
  | openFailed : FileStep table [.note .openFailed] table
  | openedAndClosed (handle : Handle) (reads : Nat) :
      FileStep table (.acquire handle :: List.replicate reads (.touch handle) ++ [.release handle])
        table
  | entered {known : FrsmTable Handle} (isKnown : table = some known) (path : Octets)
      (handle : Handle) (reads : Nat) :
      FileStep table (.acquire handle :: List.replicate reads (.touch handle) ++
          [.note (.allocated (known.alloc path handle).1 handle)])
        (some (known.alloc path handle).2)
  | read {known : FrsmTable Handle} (isKnown : table = some known) {id : Int32}
      {frsm : Frsm Handle} (found : known.get id = some frsm) :
      FileStep table [.touch frsm.handle] table
  | closed {known : FrsmTable Handle} (isKnown : table = some known) {id : Int32}
      {frsm : Frsm Handle} (found : known.get id = some frsm) :
      FileStep table [.release frsm.handle] (some { known with entries := known.entries.erase id })

theorem marshalFileOpenResponse_ok_iff {layout : TimeLayout} {frsmID : Int32} {size : Int64}
    {lastModified : Instant} :
    (∃ payload, marshalFileOpenResponse layout frsmID size lastModified = .ok payload) ↔
      FileSize size := by
  rw [fileSize_iff, marshalFileOpenResponse, encodeFileAttributes]
  by_cases outside : size < 0 ∨ size > 4294967295 <;> simp [outside]

section Calls

variable {provider : FileProvider State Handle} {handle : Handle}
  {world next : FileWorld State Handle}

variable {path : Octets} {attrs : FileAttributes}

theorem openCall_ok (called : provider.openCall path world = (.ok (handle, attrs), next)) :
    next.calls = world.calls ++ [.acquire handle] := by
  unfold FileProvider.openCall World.call at called
  obtain ⟨outcome, rfl⟩ := Prod.mk.inj called
  simp only [outcome]

theorem openCall_error {error : ProviderError}
    (called : provider.openCall path world = (.error error, next)) :
    next.calls = world.calls ++ [.note .openFailed] := by
  unfold FileProvider.openCall World.call at called
  obtain ⟨outcome, rfl⟩ := Prod.mk.inj called
  simp only [outcome]

theorem readCall_calls {maxBytes : Int64} {outcome : Except ProviderError (Octets × Bool)}
    (called : provider.readCall handle maxBytes world = (outcome, next)) :
    next.calls = world.calls ++ [.touch handle] :=
  congrArg (fun result => result.2.calls) called.symm

theorem closeCall_calls {outcome : Except ProviderError Unit}
    (called : provider.closeCall handle world = (outcome, next)) :
    next.calls = world.calls ++ [.release handle] :=
  congrArg (fun result => result.2.calls) called.symm

theorem calls_closeCall (provider : FileProvider State Handle) (handle : Handle)
    (world : FileWorld State Handle) :
    (provider.closeCall handle world).2.calls = world.calls ++ [.release handle] := rfl

/-- Skipping only reads. -/
theorem skipLoop_calls (n : Int) (world : FileWorld State Handle) :
    ∃ reads, (skipLoop provider handle n world).2.calls =
      world.calls ++ List.replicate reads (.touch handle) := by
  fun_induction skipLoop provider handle n world with
  | case1 n world positive error next failed => exact ⟨1, readCall_calls failed⟩
  | case2 n world positive data more next called stop => exact ⟨1, readCall_calls called⟩
  | case3 n world positive data more next called proceeds ih =>
    obtain ⟨reads, later⟩ := ih
    refine ⟨reads + 1, ?_⟩
    rw [later, readCall_calls called, List.append_assoc, List.replicate_succ]
    rfl
  | case4 n world done => exact ⟨0, by simp⟩

theorem skipToPosition_calls {req : FileOpenRequest} {outcome : Option HandlerResult}
    (skipped : skipToPosition provider handle req attrs world = (outcome, next)) :
    ∃ reads, next.calls = world.calls ++ List.replicate reads (.touch handle) := by
  have calls : ∃ reads, (skipToPosition provider handle req attrs world).2.calls =
      world.calls ++ List.replicate reads (.touch handle) := by
    unfold skipToPosition skipFileBytes
    split
    · split
      · exact ⟨0, by simp⟩
      · exact skipLoop_calls _ _
    · exact ⟨0, by simp⟩
  rwa [skipped] at calls

/-- An opened handle is entered into the table of the connection, whether or not the response can
be encoded. -/
theorem enterFile_known {layout : TimeLayout} {path : Octets} {attrs : FileAttributes}
    {state : FileState State Handle} {table : FrsmTable Handle} (known : state.table = some table) :
    (enterFile layout provider handle path attrs state).2 =
      ⟨⟨state.world.state,
          state.world.calls ++ [.note (.allocated (table.alloc path handle).1 handle)]⟩,
        some (table.alloc path handle).2⟩ := by
  unfold enterFile
  rw [known]
  dsimp only
  split <;> rfl

variable {layout : TimeLayout} {state : FileState State Handle}

/-- The response of an entered file, if its size can be encoded. -/
theorem enterFile_ok {table : FrsmTable Handle} (known : state.table = some table)
    (size : FileSize attrs.size) :
    ∃ payload, marshalFileOpenResponse layout (table.alloc path handle).1 attrs.size
        attrs.lastModified = .ok payload ∧
      (enterFile layout provider handle path attrs state).1 =
        .response tagNumFileOpen true payload := by
  obtain ⟨payload, encoded⟩ := (@marshalFileOpenResponse_ok_iff layout (table.alloc path handle).1
    attrs.size attrs.lastModified).mpr size
  refine ⟨payload, encoded, ?_⟩
  rw [enterFile, known]
  simp only [encoded]

/-- Without a connection the handle is closed again. -/
theorem enterFile_unknown (unknown : state.table = none) :
    enterFile layout provider handle path attrs state =
      (.failure "no server connection in context",
        { state with world := (provider.closeCall handle state.world).2 }) := by
  unfold enterFile
  rw [unknown]

end Calls

section Exits

variable {service : FileService State Handle} {provider : FileProvider State Handle}
  {body : Octets} {state : FileState State Handle} {req : FileOpenRequest} {handle : Handle}
  {attrs : FileAttributes} {opened world : FileWorld State Handle}

section Decoded

variable (configured : service.provider = some provider)
  (decoded : unmarshalFileOpenRequest body = .ok req)

include configured decoded

theorem handleFileOpen_openError {error : ProviderError}
    (called : provider.openCall req.fileName state.world = (.error error, opened)) :
    handleFileOpen service body state = (fileError error, { state with world := opened }) := by
  rw [handleFileOpen, configured]
  simp only [decoded, called]

theorem handleFileOpen_skipError {error : HandlerResult}
    (called : provider.openCall req.fileName state.world = (.ok (handle, attrs), opened))
    (skipped : skipToPosition provider handle req attrs opened = (some error, world)) :
    handleFileOpen service body state =
      (error, { state with world := (provider.closeCall handle world).2 }) := by
  rw [handleFileOpen, configured]
  simp only [decoded, called, skipped]

theorem handleFileOpen_inPosition
    (called : provider.openCall req.fileName state.world = (.ok (handle, attrs), opened))
    (skipped : skipToPosition provider handle req attrs opened = (none, world)) :
    handleFileOpen service body state =
      enterFile service.layout provider handle req.fileName attrs
        { state with world := world } := by
  rw [handleFileOpen, configured]
  simp only [decoded, called, skipped]

end Decoded

end Exits

theorem handleFileOpen_step (service : FileService State Handle) (body : Octets)
    (state : FileState State Handle) :
    ∃ trace, (handleFileOpen service body state).2.world.calls = state.world.calls ++ trace ∧
      FileStep state.table trace (handleFileOpen service body state).2.table := by
  unfold handleFileOpen
  split
  · exact ⟨[], by simp, .idle⟩
  rename_i provider _
  split
  · exact ⟨[], by simp, .idle⟩
  rename_i req _
  split
  · next error world called => exact ⟨_, openCall_error called, .openFailed⟩
  rename_i handle attrs opened called
  split
  · rename_i error world skipped
    obtain ⟨reads, read⟩ := skipToPosition_calls skipped
    refine ⟨_, ?_, .openedAndClosed handle reads⟩
    rw [calls_closeCall, read, openCall_ok called]
    simp
  rename_i world skipped
  obtain ⟨reads, read⟩ := skipToPosition_calls skipped
  cases known : state.table with
  | none =>
    rw [enterFile_unknown rfl]
    refine ⟨_, ?_, .openedAndClosed handle reads⟩
    rw [calls_closeCall, read, openCall_ok called]
    simp
  | some table =>
    rw [@enterFile_known State Handle provider handle service.layout
      req.fileName attrs ⟨world, some table⟩ table rfl]
    refine ⟨_, ?_, .entered rfl req.fileName handle reads⟩
    rw [read, openCall_ok called]
    simp

theorem handleFileRead_step (service : FileService State Handle) (body : Octets)
    (state : FileState State Handle) :
    ∃ trace, (handleFileRead service body state).2.world.calls = state.world.calls ++ trace ∧
      FileStep state.table trace (handleFileRead service body state).2.table := by
  unfold handleFileRead
  split
  · exact ⟨[], by simp, .idle⟩
  · split
    · exact ⟨[], by simp, .idle⟩
    · split
      · exact ⟨[], by simp, .idle⟩
      rename_i table known
      split
      · exact ⟨[], by simp, .idle⟩
      rename_i frsm found
      split
      · next error world called =>
          exact ⟨_, readCall_calls called, .read known found⟩
      rename_i data moreFollows world called
      exact ⟨_, readCall_calls called, .read known found⟩

variable {table : FrsmTable Handle} {id : Int32} {frsm : Frsm Handle}
  {log : List (Use Handle (FileNote Handle))}

theorem remove_some {rest : FrsmTable Handle} (removed : table.remove id = (some frsm, rest)) :
    table.get id = some frsm ∧ rest = { table with entries := table.entries.erase id } := by
  unfold FrsmTable.remove at removed
  split at removed
  · cases removed
  rename_i found
  cases removed
  exact ⟨found, rfl⟩

theorem handleFileClose_step (service : FileService State Handle) (body : Octets)
    (state : FileState State Handle) :
    ∃ trace, (handleFileClose service body state).2.world.calls = state.world.calls ++ trace ∧
      FileStep state.table trace (handleFileClose service body state).2.table := by
  unfold handleFileClose
  split
  · exact ⟨[], by simp, .idle⟩
  · split
    · exact ⟨[], by simp, .idle⟩
    · split
      · exact ⟨[], by simp, .idle⟩
      rename_i table known
      split
      · exact ⟨[], by simp, .idle⟩
      rename_i frsm rest removed
      obtain ⟨found, rfl⟩ := remove_some removed
      split
      · next error world called =>
          exact ⟨_, closeCall_calls called, .closed known found⟩
      · next world called => exact ⟨_, closeCall_calls called, .closed known found⟩

theorem FileService.handle_step (service : FileService State Handle)
    (state : FileState State Handle) (request : FileRequest) :
    ∃ trace, (service.handle state request).2.world.calls = state.world.calls ++ trace ∧
      FileStep state.table trace (service.handle state request).2.table := by
  cases request with
  | fileOpen body => exact handleFileOpen_step service body state
  | fileRead body => exact handleFileRead_step service body state
  | fileClose body => exact handleFileClose_step service body state

/-! ## The table keeps the ledger -/

/-- The handles of the table. -/
def FrsmTable.handles (table : FrsmTable Handle) : Multiset Handle :=
  (table.entries.entries.map fun entry => entry.2.handle : List Handle)

/-- The IDs allocated so far with the handles they were allocated for, oldest first. -/
def allocations (log : List (Use Handle (FileNote Handle))) : List (Int32 × Handle) :=
  log.filterMap fun
    | .note (.allocated id handle) => some (id, handle)
    | _ => none

def allocatedIDs (log : List (Use Handle (FileNote Handle))) : List Int32 :=
  (allocations log).map Prod.fst

/-- The opens of a log that succeeded. -/
def opens (log : List (Use Handle (FileNote Handle))) : Nat :=
  log.countP fun
    | .acquire _ => true
    | _ => false

/-- What holds between the table and the log after every request. -/
structure Accounted [DecidableEq Handle] (table : FrsmTable Handle)
    (log : List (Use Handle (FileNote Handle))) : Prop where
  held : replay 0 log = some table.handles
  own : ∀ id frsm, table.get id = some frsm → frsm.id = id ∧ .note (.allocated id frsm.handle) ∈ log
  counted : allocatedIDs log = (List.range' 1 (allocatedIDs log).length).map Int32.ofNat
  next : table.nextID = Int32.ofNat (allocatedIDs log).length
  fewer : (allocatedIDs log).length ≤ opens log

theorem ofNat_injective {first second : Nat} (small : first < 2 ^ 32) (also : second < 2 ^ 32)
    (same : Int32.ofNat first = Int32.ofNat second) : first = second := by
  have bits := congrArg Int32.toBitVec same
  have values := congrArg BitVec.toNat bits
  rw [Int32.toBitVec_ofNat', Int32.toBitVec_ofNat', BitVec.toNat_ofNat, BitVec.toNat_ofNat,
    Nat.mod_eq_of_lt small, Nat.mod_eq_of_lt also] at values
  exact values

theorem handles_insert (fresh : id ∉ table.entries) (next : Int32) :
    (FrsmTable.mk (table.entries.insert id frsm) next).handles = frsm.handle ::ₘ table.handles := by
  rw [FrsmTable.handles, FrsmTable.handles, AList.entries_insert_of_notMem fresh]
  rfl

theorem handles_erase (found : table.get id = some frsm) :
    table.handles = frsm.handle ::ₘ { table with entries := table.entries.erase id }.handles := by
  have member : (⟨id, frsm⟩ : Sigma fun _ : Int32 => Frsm Handle) ∈ table.entries.entries :=
    AList.mem_lookup_iff.mp found
  obtain ⟨other, before, after, -, split, erased⟩ :=
    List.exists_of_kerase (List.mem_keys_of_mem member)
  have same : other = frsm := by
    have also : (⟨id, other⟩ : Sigma fun _ : Int32 => Frsm Handle) ∈ table.entries.entries := by
      rw [split]
      simp
    exact table.entries.nodupKeys.eq_of_mk_mem also member
  subst same
  change ((table.entries.entries.map fun entry => entry.2.handle : List Handle) : Multiset Handle) =
    other.handle ::ₘ ((List.kerase id table.entries.entries).map fun entry => entry.2.handle)
  rw [erased, split, Multiset.cons_coe, Multiset.coe_eq_coe, List.map_append, List.map_append]
  exact List.perm_middle

theorem mem_handles (found : table.get id = some frsm) : frsm.handle ∈ table.handles := by
  rw [handles_erase found]
  exact Multiset.mem_cons_self _ _

/-! ## Traces -/

theorem allocatedIDs_append (first second : List (Use Handle (FileNote Handle))) :
    allocatedIDs (first ++ second) = allocatedIDs first ++ allocatedIDs second := by
  rw [allocatedIDs, allocations, List.filterMap_append, List.map_append]
  rfl

theorem allocatedIDs_opened (handle : Handle) (reads : Nat) :
    allocatedIDs (Use.acquire handle :: List.replicate reads (Use.touch handle) :
      List (Use Handle (FileNote Handle))) = [] := by
  simp [allocatedIDs, allocations]

theorem opens_append (first second : List (Use Handle (FileNote Handle))) :
    opens (first ++ second) = opens first + opens second :=
  List.countP_append

theorem opens_opened (handle : Handle) (reads : Nat) :
    opens (Use.acquire handle :: List.replicate reads (Use.touch handle) :
      List (Use Handle (FileNote Handle))) = 1 := by
  simp [opens]

variable {handle : Handle}

theorem mem_allocations (member : .note (.allocated id handle) ∈ log) :
    (id, handle) ∈ allocations log :=
  List.mem_filterMap.mpr ⟨_, member, rfl⟩

theorem mem_allocatedIDs (member : .note (.allocated id handle) ∈ log) : id ∈ allocatedIDs log :=
  List.mem_map_of_mem (mem_allocations member)

/-- An ID that was allocated once was allocated for one handle. -/
theorem allocated_unique {first second : Handle} (distinct : (allocatedIDs log).Nodup)
    (one : .note (.allocated id first) ∈ log) (other : .note (.allocated id second) ∈ log) :
    first = second :=
  congrArg Prod.snd
    (List.inj_on_of_nodup_map distinct (mem_allocations one) (mem_allocations other) rfl)

section Table

variable [DecidableEq Handle]

/-! ## Steps -/

namespace Accounted

variable {table : FrsmTable Handle} {log trace : List (Use Handle (FileNote Handle))}

section Kept

variable (accounted : Accounted table log)

include accounted

/-- A step that allocates nothing and whose table has no new entries. -/
theorem extend {next : FrsmTable Handle}
    (none : allocatedIDs trace = []) (same : next.nextID = table.nextID)
    (kept : ∀ id frsm, next.get id = some frsm → table.get id = some frsm)
    (held : replay table.handles trace = some next.handles) : Accounted next (log ++ trace) where
  held := replay_trans accounted.held held
  own id frsm found := by
    obtain ⟨own, allocated⟩ := accounted.own id frsm (kept id frsm found)
    exact ⟨own, List.mem_append_left _ allocated⟩
  counted := by
    rw [allocatedIDs_append, none, List.append_nil]
    exact accounted.counted
  next := by
    rw [allocatedIDs_append, none, List.append_nil, same]
    exact accounted.next
  fewer := by
    rw [allocatedIDs_append, none, List.append_nil, opens_append]
    exact accounted.fewer.trans (Nat.le_add_right _ _)

theorem nextID_add_one : table.nextID + 1 = Int32.ofNat ((allocatedIDs log).length + 1) := by
  rw [accounted.next, Int32.ofNat_add]
  rfl

/-- As long as fewer than `2 ^ 32` files were opened, the next ID was never allocated. -/
theorem fresh (few : opens log + 1 < 2 ^ 32) :
    table.nextID + 1 ∉ allocatedIDs log := by
  have small := accounted.fewer
  rw [accounted.nextID_add_one, accounted.counted, List.mem_map]
  rintro ⟨earlier, member, same⟩
  rw [List.mem_range'_1] at member
  rw [List.length_map, List.length_range'] at same
  have equal := ofNat_injective (by omega) (by omega) same
  omega

theorem enter (path : Octets) (handle : Handle) (reads : Nat) (few : opens log + 1 < 2 ^ 32) :
    Accounted (table.alloc path handle).2 (log ++ (.acquire handle ::
      List.replicate reads (.touch handle) ++
        [.note (.allocated (table.alloc path handle).1 handle)])) := by
  have unused : table.nextID + 1 ∉ table.entries := by
    intro member
    obtain ⟨frsm, found⟩ := Option.isSome_iff_exists.mp (AList.lookup_isSome.mpr member)
    exact accounted.fresh few (mem_allocatedIDs (accounted.own _ frsm found).2)
  have ids : allocatedIDs (log ++ (.acquire handle :: List.replicate reads (.touch handle) ++
      [.note (.allocated (table.alloc path handle).1 handle)])) =
        allocatedIDs log ++ [table.nextID + 1] := by
    rw [allocatedIDs_append, allocatedIDs_append, allocatedIDs_opened]
    rfl
  refine ⟨?_, fun id frsm found => ?_, ?_, ?_, ?_⟩
  · rw [show (table.alloc path handle).2.handles = handle ::ₘ table.handles from
      handles_insert unused _]
    exact replay_trans accounted.held (replay_trans (replay_acquired _ handle reads) rfl)
  · by_cases same : id = table.nextID + 1
    · subst same
      have here : (table.entries.insert (table.nextID + 1)
          ⟨table.nextID + 1, handle, path⟩).lookup (table.nextID + 1) = some frsm := found
      rw [AList.lookup_insert] at here
      cases here
      exact ⟨rfl, by simp [FrsmTable.alloc]⟩
    · obtain ⟨own, allocated⟩ := accounted.own id frsm
        ((AList.lookup_insert_ne same).symm.trans found)
      exact ⟨own, List.mem_append_left _ allocated⟩
  · rw [ids, List.length_append, List.length_singleton, List.range'_concat, List.map_append,
      ← accounted.counted, accounted.nextID_add_one]
    rw [List.map_singleton, Nat.one_mul, Nat.add_comm 1]
  · rw [ids, List.length_append, List.length_singleton]
    exact accounted.nextID_add_one
  · rw [ids, List.length_append, List.length_singleton, opens_append, opens_append, opens_opened]
    have fewer := accounted.fewer
    omega

/-- Every step keeps the account. -/
theorem step {after : Option (FrsmTable Handle)}
    (stepped : FileStep (some table) trace after) (few : opens (log ++ trace) < 2 ^ 32) :
    ∃ next, after = some next ∧ Accounted next (log ++ trace) := by
  cases stepped with
  | idle | openFailed => exact ⟨table, rfl, accounted.extend rfl rfl (fun _ _ => id) rfl⟩
  | openedAndClosed handle reads =>
    refine ⟨table, rfl, accounted.extend ?_ rfl (fun _ _ => id) ?_⟩
    · rw [allocatedIDs_append, allocatedIDs_opened]
      rfl
    · exact replay_trans (replay_acquired _ handle reads) (replay_released _ handle)
  | entered isKnown path handle reads =>
    cases isKnown
    refine ⟨_, rfl, accounted.enter path handle reads ?_⟩
    rw [opens_append, opens_append, opens_opened] at few
    omega
  | read isKnown found =>
    cases isKnown
    refine ⟨table, rfl, accounted.extend rfl rfl (fun _ _ => id) ?_⟩
    exact replay_touches (mem_handles found) 1
  | @closed known isKnown id frsm found =>
    cases isKnown
    refine ⟨_, rfl, accounted.extend rfl rfl (fun other kept => ?_) ?_⟩
    · intro there
      by_cases same : other = id
      · subst same
        exact absurd ((AList.lookup_erase _ _).symm.trans there) (by simp)
      · exact (AList.lookup_erase_ne same).symm.trans there
    · rw [handles_erase found]
      exact replay_released _ frsm.handle

theorem nodup (few : opens log < 2 ^ 32) :
    (allocatedIDs log).Nodup := by
  have small := accounted.fewer
  rw [accounted.counted]
  refine List.Nodup.map_on (fun first member second also same => ?_) List.nodup_range'
  rw [List.mem_range'_1] at member also
  exact ofNat_injective (by omega) (by omega) same

end Kept

theorem new : @Accounted Handle _ {} [] where
  held := rfl
  own _ _ found := by cases found
  counted := rfl
  next := rfl
  fewer := Nat.le_refl 0

end Accounted

/-! ## Runs -/

variable {service : FileService State Handle}

omit [DecidableEq Handle] in
variable (service) in
/-- A run only adds to the log. -/
theorem run_calls (state : FileState State Handle) (requests : List FileRequest) :
    ∃ trace, (service.run state requests).world.calls = state.world.calls ++ trace := by
  induction requests generalizing state with
  | nil => exact ⟨[], (List.append_nil _).symm⟩
  | cons request requests ih =>
    obtain ⟨first, added, -⟩ := service.handle_step state request
    obtain ⟨rest, later⟩ := ih (service.handle state request).2
    exact ⟨first ++ rest, by
      rw [FileService.run, List.foldl_cons, ← FileService.run, later, added, List.append_assoc]⟩

theorem run_accounted {state : FileState State Handle} (known : state.table = some table)
    (accounted : Accounted table state.world.calls) (requests : List FileRequest)
    (few : opens (service.run state requests).world.calls < 2 ^ 32) :
    ∃ final, (service.run state requests).table = some final ∧
      Accounted final (service.run state requests).world.calls := by
  induction requests generalizing state table with
  | nil => exact ⟨table, known, accounted⟩
  | cons request requests ih =>
    obtain ⟨trace, added, stepped⟩ := service.handle_step state request
    rw [known] at stepped
    have sofar : opens (state.world.calls ++ trace) < 2 ^ 32 := by
      obtain ⟨rest, later⟩ := run_calls service (service.handle state request).2 requests
      rw [FileService.run, List.foldl_cons, ← FileService.run, later, opens_append, added] at few
      omega
    obtain ⟨next, left, kept⟩ := accounted.step stepped sofar
    rw [← added] at kept
    exact ih left kept few

/-- Closing everything releases what the files hold. -/
theorem closeAll_replays {provider : FileProvider State Handle} {order : List (Frsm Handle)}
    {world : FileWorld State Handle} {held : Multiset Handle}
    (replayed : replay 0 world.calls = some ((order.map Frsm.handle : List Handle) + held)) :
    replay 0 (closeAll provider order world).calls = some held := by
  induction order generalizing world with
  | nil => simpa [closeAll] using replayed
  | cons frsm order ih =>
    rw [closeAll, List.foldl_cons, ← closeAll]
    refine ih ?_
    rw [calls_closeCall]
    refine replay_trans replayed ?_
    rw [List.map_cons, ← Multiset.cons_coe, Multiset.cons_add]
    exact replay_released _ frsm.handle

/-- Over every run of requests followed by `closeAll`, each handle is closed as often as it was
opened and is only read while it is open, and at every moment the table maps distinct IDs to the
handles they were allocated for. -/
theorem fileHandles_accounted (service : FileService State Handle)
    (provider : FileProvider State Handle) (start : State) (requests : List FileRequest)
    (order : List (Frsm Handle))
    (few : opens (service.run (.new start) requests).world.calls < 2 ^ 32)
    (all : ∀ table, (service.run (.new start) requests).table = some table →
      order.Perm table.frsms) :
    let final := service.run (.new start) requests
    let log := (closeAll provider order final.world).calls
    (∀ handle, log.count (.acquire handle) = log.count (.release handle)) ∧
    (∀ front handle back, log = front ++ .touch handle :: back →
      front.count (.release handle) < front.count (.acquire handle)) ∧
    ∃ table, final.table = some table ∧ table.entries.keys.Nodup ∧
      ∀ id frsm, table.get id = some frsm → frsm.id = id ∧
        .note (.allocated id frsm.handle) ∈ final.world.calls ∧
        ∀ other, .note (.allocated id other) ∈ final.world.calls → other = frsm.handle := by
  obtain ⟨table, left, accounted⟩ := run_accounted rfl Accounted.new requests few
  have files : (table.handles : Multiset Handle) = (order.map Frsm.handle : List Handle) := by
    rw [FrsmTable.handles, Multiset.coe_eq_coe]
    refine List.Perm.trans ?_ ((all table left).map Frsm.handle).symm
    rw [FrsmTable.frsms, List.map_map]
    rfl
  have replayed : replay 0 (closeAll provider order
      (service.run (.new start) requests).world).calls = some 0 := by
    refine closeAll_replays ?_
    rw [accounted.held, files, Multiset.add_zero]
  refine ⟨fun handle => ?_, fun front handle back split => ?_, table, left,
    table.entries.nodupKeys, fun id frsm found => ?_⟩
  · have counts := count_of_replay replayed handle
    simpa using counts
  · rw [split] at replayed
    have touched := count_lt_of_touch replayed
    simpa using touched
  · obtain ⟨own, allocated⟩ := accounted.own id frsm found
    exact ⟨own, allocated, fun other also =>
      allocated_unique (accounted.nodup few) also allocated⟩

end Table

section Samples

/-- A provider that opens the handle 7 for every path and reports the given size. -/
def constantProvider (size : Int64) : FileProvider Unit Nat where
  openFile _ state := (.ok (7, ⟨size, .zero⟩), state)
  read _ _ state := (.ok ([], false), state)
  close _ state := (.ok (), state)

def constantService (size : Int64) : FileService Unit Nat :=
  ⟨some (constantProvider size), secondsLayout, 1024⟩

/-- The body of a FileOpen request for `f` at position 0. -/
def sampleOpen : Octets := encodeFileName [0x66] ++ encodeTLV 0x81 (encodeUint32 0)

/-- Two opens, a read and a close of the first file, a read of no file. -/
def sampleRequests : List FileRequest :=
  [.fileOpen sampleOpen, .fileOpen sampleOpen, .fileRead [0x01], .fileClose [0x01],
    .fileRead [0x01]]

def sampleRun : FileState Unit Nat := (constantService 3).run (.new ()) sampleRequests

theorem fileHandles_accounted_sampleRun :
    let order := (sampleRun.table.map FrsmTable.frsms).getD []
    let log := (closeAll (constantProvider 3) order sampleRun.world).calls
    order.length = 1 ∧ log.count (.acquire 7) = log.count (.release 7) := by
  refine ⟨by decide +kernel, (fileHandles_accounted (constantService 3) (constantProvider 3) ()
    sampleRequests _ (by decide +kernel) fun table left => ?_).1 7⟩
  rw [show sampleRun.table = some table from left]
  exact List.Perm.refl _

end Samples

/-! ## Failed opens -/

/-- The handler returned an error. -/
def Fails (result : HandlerResult) : Prop :=
  ∀ tag constructed payload, result ≠ .response tag constructed payload

theorem fails_failure (text : String) : Fails (.failure text) := nofun

/-- The table has the entries it had, and what was opened was closed. -/
structure LeavesNothing (before after : FileState State Handle) : Prop where
  entries : after.table.map FrsmTable.entries = before.table.map FrsmTable.entries
  closed : ∃ trace, after.world.calls = before.world.calls ++ trace ∧
    ∀ handle, .acquire handle ∈ trace → .release handle ∈ trace

theorem LeavesNothing.refl (state : FileState State Handle) : LeavesNothing state state :=
  ⟨rfl, [], (List.append_nil _).symm, fun _ member => absurd member List.not_mem_nil⟩

section FailedOpen

variable {service : FileService State Handle} {provider : FileProvider State Handle}
  {handle : Handle} {state : FileState State Handle} {opened world : FileWorld State Handle}

variable {reads : Nat}

/-- A handle that was opened, read and closed leaves nothing. -/
theorem leavesNothing_closed (open_ : opened.calls = state.world.calls ++ [.acquire handle])
    (read : world.calls = opened.calls ++ List.replicate reads (.touch handle)) :
    LeavesNothing state { state with world := (provider.closeCall handle world).2 } where
  entries := rfl
  closed := by
    refine ⟨.acquire handle :: List.replicate reads (.touch handle) ++ [.release handle], ?_, ?_⟩
    · rw [calls_closeCall, read, open_]
      simp
    · intro other member
      simp only [List.cons_append, List.mem_cons, List.mem_append, List.mem_replicate,
        List.not_mem_nil, or_false, reduceCtorEq, and_false] at member
      cases member
      simp

/-- A handle that was entered is not closed. -/
theorem not_leavesNothing_entered {layout : TimeLayout} {path : Octets} {attrs : FileAttributes}
    (known : state.table = some table)
    (open_ : opened.calls = state.world.calls ++ [.acquire handle])
    (read : world.calls = opened.calls ++ List.replicate reads (.touch handle)) :
    ¬LeavesNothing state
      (enterFile layout provider handle path attrs { state with world := world }).2 := by
  rintro ⟨-, trace, added, closed⟩
  rw [@enterFile_known State Handle provider handle layout path attrs { state with world := world }
    table known] at added
  simp only [read, open_, List.append_assoc, List.append_cancel_left_eq] at added
  subst added
  simpa using closed handle (by simp)

end FailedOpen

/-- A failed FileOpen leaves nothing behind exactly if it did not fail at the size of a file that
was already open and in position. -/
theorem failedOpen_leavesNothing_iff (service : FileService State Handle) (body : Octets)
    (state : FileState State Handle) (failed : Fails (handleFileOpen service body state).1) :
    LeavesNothing state (handleFileOpen service body state).2 ↔
      ∀ provider req handle attrs opened world, service.provider = some provider →
        unmarshalFileOpenRequest body = .ok req →
        provider.openCall req.fileName state.world = (.ok (handle, attrs), opened) →
        skipToPosition provider handle req attrs opened = (none, world) →
        state.table ≠ none → FileSize attrs.size := by
  cases configured : service.provider with
  | none =>
    have same : (handleFileOpen service body state).2 = state := by
      rw [handleFileOpen, configured]
    rw [same]
    exact iff_of_true (.refl state) fun _ _ _ _ _ _ other => by cases other
  | some provider =>
    cases decoded : unmarshalFileOpenRequest body with
    | error text =>
      have same : (handleFileOpen service body state).2 = state := by
        rw [handleFileOpen, configured]
        simp only [decoded]
      rw [same]
      exact iff_of_true (.refl state) fun _ _ _ _ _ _ _ other => by cases other
    | ok req =>
      cases called : provider.openCall req.fileName state.world with
      | mk outcome opened =>
        cases outcome with
        | error error =>
          rw [handleFileOpen_openError configured decoded called]
          refine iff_of_true ⟨rfl, _, openCall_error called, by simp⟩ ?_
          intro _ _ _ _ _ _ same request also
          cases same
          cases request
          cases called.symm.trans also
        | ok result =>
          obtain ⟨handle, attrs⟩ := result
          have logged := openCall_ok called
          cases skipped : skipToPosition provider handle req attrs opened with
          | mk outcome world =>
            obtain ⟨reads, read⟩ := skipToPosition_calls skipped
            cases outcome with
            | some error =>
              rw [handleFileOpen_skipError configured decoded called skipped]
              refine iff_of_true (leavesNothing_closed logged read) ?_
              intro _ _ _ _ _ _ same request also through
              cases same
              cases request
              cases called.symm.trans also
              cases skipped.symm.trans through
            | none =>
              rw [handleFileOpen_inPosition configured decoded called skipped] at failed ⊢
              by_cases unknown : state.table = none
              · rw [enterFile_unknown (show
                  FileState.table { state with world := world } = none from unknown)]
                exact iff_of_true (leavesNothing_closed logged read)
                  fun _ _ _ _ _ _ _ _ _ _ known => absurd unknown known
              · obtain ⟨table, known⟩ := Option.ne_none_iff_exists'.mp unknown
                refine iff_of_false (not_leavesNothing_entered known logged read) fun sized => ?_
                have size := sized provider req handle attrs opened world rfl rfl called
                  skipped unknown
                obtain ⟨payload, -, answered⟩ := enterFile_ok (show
                  FileState.table { state with world := world } = some table from known)
                  size
                exact failed _ _ _ answered

/-- A size of zero can be encoded, so a failure at the connection leaves nothing. -/
theorem failedOpen_leavesNothing_noConnection :
    Fails (handleFileOpen (constantService 0) sampleOpen ⟨⟨(), []⟩, none⟩).1 ∧
      LeavesNothing ⟨⟨(), []⟩, none⟩
        (handleFileOpen (constantService 0) sampleOpen ⟨⟨(), []⟩, none⟩).2 := by
  have failed : Fails (handleFileOpen (constantService 0) sampleOpen ⟨⟨(), []⟩, none⟩).1 := by
    have result : (handleFileOpen (constantService 0) sampleOpen ⟨⟨(), []⟩, none⟩).1 =
        .failure "no server connection in context" := by
      decide +kernel
    exact result ▸ fails_failure _
  refine ⟨failed, (failedOpen_leavesNothing_iff _ _ _ failed).mpr ?_⟩
  intro _ _ _ _ _ _ _ _ _ _ known
  exact absurd rfl known

/-- A file of `2 ^ 32` octets stays open and in the table when its size cannot be encoded. -/
theorem failedOpen_leavesFile :
    let after := (handleFileOpen (constantService 0x100000000) sampleOpen (.new ())).2
    Fails (handleFileOpen (constantService 0x100000000) sampleOpen (.new ())).1 ∧
      after.table.map FrsmTable.frsms = some [⟨1, 7, [0x66]⟩] ∧
      after.world.calls = [.acquire 7, .note (.allocated 1 7)] := by
  have result : (handleFileOpen (constantService 0x100000000) sampleOpen (.new ())).1 =
      .failure ("marshal file-open response: pdu: file size 4294967296 exceeds MMS Unsigned32 " ++
        "range [0, 4294967295]") := by
    decide +kernel
  exact ⟨result ▸ fails_failure _, by decide +kernel, by decide +kernel⟩

end GoMms.Server
