import GoMms.Foundation.Machine
import GoMms.Foundation.Reading
import GoMms.Server.NameList
import GoMms.Servermodel.Sharing

/-!
# A page of names against concurrent registry calls

The handler of GetNameList takes its page under the read lock and encodes it after the lock is
released. The page is a window on the array of the order list, and the calls of other
connections rewrite that array in place under the write lock. Each event is a registry call
taking the lock, one of its cell writes, the listing, or one read of the encoder, so a run is an
interleaving.

A response is cut from one list as long as no write hits the window while it is being encoded.
-/

namespace GoMms.Server.Snapshot

open Servermodel Pdu PageWalk Sorted SliceHeap

variable {Any : Type} {grow : Nat → Nat → Nat}

/-! ## The encoder as a program that reads the page -/

/-- `MarshalGetNameListResponse` of the first `k` names of a page. -/
def encodeReading (moreFollows : Bool) (k : Nat) (truncated : Bool) : Reading Octets Octets :=
  (Reading.readFrom 0 k).bind fun names =>
    .done (marshalGetNameListResponse names (truncated || moreFollows))

/-- The search of `fitList` over an encoder that reads. -/
def fitSearchReading (budget : Int64) (encode : Nat → Bool → Reading Octets Octets) (lo hi : Int)
    (best : Option Octets) : Reading Octets (Option Octets) :=
  if lo ≤ hi then
    let mid := (lo + hi) / 2
    (encode mid.toNat true).bind fun octets =>
      if (octets.length : Int) ≤ budget.toInt then
        fitSearchReading budget encode (mid + 1) hi (some octets)
      else fitSearchReading budget encode lo (mid - 1) best
  else .done best
termination_by (hi + 1 - lo).toNat

/-- `fitList` over an encoder that reads. -/
def fitListReading (budget : Int64) (encode : Nat → Bool → Reading Octets Octets) (n : Nat) :
    Reading Octets (Except PageError Octets) :=
  (encode n false).bind fun full =>
    if (full.length : Int) ≤ budget.toInt then .done (.ok full)
    else
      (fitSearchReading budget encode 1 ((n : Int) - 1) none).bind fun best =>
        match best with
        | none => .done (.error .responseTooLarge)
        | some octets => .done (.ok octets)

section Encoder

variable {budget : Int64} {encode : Nat → Bool → Reading Octets Octets}

theorem eval_encodeReading (memory : Nat → Octets) (moreFollows : Bool) (k : Nat)
    (truncated : Bool) :
    (encodeReading moreFollows k truncated).eval memory =
      marshalGetNameListResponse ((List.range k).map memory) (truncated || moreFollows) := by
  rw [encodeReading, Reading.eval_bind, Reading.eval_readFrom, ← List.range_eq_range']
  rfl

theorem within_encodeReading {bound k : Nat} (inside : k ≤ bound) (moreFollows truncated : Bool) :
    (encodeReading moreFollows k truncated).Within bound :=
  (Reading.within_readFrom (by omega)).bind fun _ => trivial

theorem eval_fitSearchReading (memory : Nat → Octets) (lo hi : Int) (best : Option Octets) :
    fitSearch budget (fun k truncated => (.ok ((encode k truncated).eval memory) :
        Except PageError Octets)) lo hi best =
      .ok ((fitSearchReading budget encode lo hi best).eval memory) := by
  fun_induction fitSearchReading budget encode lo hi best with
  | case1 lo hi best inside mid shorter longer =>
    rw [fitSearch, if_pos inside, Reading.eval_bind]
    dsimp only
    split_ifs
    · exact shorter _
    · exact longer
  | case2 lo hi best outside =>
    rw [fitSearch, if_neg outside]
    rfl

theorem within_fitSearchReading {bound : Nat} {lo hi : Int} {best : Option Octets}
    (below : hi ≤ bound)
    (encoder : ∀ k truncated, k ≤ bound → (encode k truncated).Within bound) :
    (fitSearchReading budget encode lo hi best).Within bound := by
  fun_induction fitSearchReading budget encode lo hi best with
  | case1 lo hi best inside mid longer shorter =>
    refine (encoder _ true (by omega)).bind fun octets => ?_
    split_ifs
    · exact longer octets below
    · exact shorter (by omega)
  | case2 => trivial

/-- Let through in one piece, the encoder is `fitList`. -/
theorem eval_fitListReading (memory : Nat → Octets) (n : Nat) :
    (fitListReading budget encode n).eval memory =
      fitList budget (fun k truncated => .ok ((encode k truncated).eval memory))
        .responseTooLarge n := by
  rw [fitListReading, Reading.eval_bind, fitList]
  by_cases fits : ((((encode n false).eval memory).length : Nat) : Int) ≤ budget.toInt
  · simp only [if_pos fits]
    rfl
  · simp only [if_neg fits, Reading.eval_bind, eval_fitSearchReading]
    cases (fitSearchReading budget encode 1 ((n : Int) - 1) none).eval memory <;> rfl

theorem within_fitListReading {n : Nat}
    (encoder : ∀ k truncated, k ≤ n → (encode k truncated).Within n) :
    (fitListReading budget encode n).Within n := by
  refine (encoder n false (le_refl n)).bind fun full => ?_
  split_ifs
  · trivial
  · refine (within_fitSearchReading (by omega) encoder).bind fun best => ?_
    cases best <;> trivial

end Encoder

/-! ## The interleavings -/

/-- A GetNameList request once its list is chosen; the handler passes 0 for `maxNames`. -/
structure Request where
  listing : Registry.Listing
  continueAfter : Octets
  maxNames : Int64
  budget : Int64
  deriving DecidableEq, Repr

/-- Where the handler is. -/
inductive Handler where
  | idle
  | encoding (page : Slice) (program : Reading Octets (Except PageError Octets))
  | finished (response : Except PageError Octets)

/-- The page that is being encoded. -/
def Handler.page? : Handler → Option Slice
  | .encoding page _ => some page
  | .idle | .finished _ => none

/-- The response the handler has finished. -/
def Handler.response? : Handler → Option Octets
  | .finished (.ok octets) => some octets
  | _ => none

theorem Handler.eq_of_response? {handler : Handler} {octets : Octets}
    (responded : handler.response? = some octets) : handler = .finished (.ok octets) := by
  unfold response? at responded
  split at responded
  · rw [Option.some.inj responded]
  · cases responded

/-- The registry and the memory its lists live in. A call holds the write lock while it has
writes to make. -/
structure System (Any : Type) where
  registry : Registry Any Slice
  memory : Cells Octets
  next : Nat
  pending : List (Write Octets)
  handler : Handler

inductive Event (Any : Type) where
  /-- A call takes the write lock. -/
  | begin (call : Call Any)
  /-- The call makes its next write, and returns after its last. -/
  | write
  /-- The handler takes its page under the read lock. -/
  | list (request : Request)
  /-- The encoder reads the next name, or is done. -/
  | read

namespace System

def new (grow : Nat → Nat → Nat) : System Any :=
  ⟨Registry.new (sliceOps grow), fun _ _ => [], 0, [], .idle⟩

/-- The names of an order list as they are in memory. -/
def listAt (grow : Nat → Nat → Nat) (system : System Any) (listing : Registry.Listing) :
    List Octets :=
  (system.registry.orderOf (sliceOps grow) listing).elements system.memory

/-- The handler has taken its page. -/
def listed (grow : Nat → Nat → Nat) (system : System Any) (request : Request) : System Any :=
  let page := system.registry.list (sliceOps grow) request.listing request.continueAfter
    request.maxNames ⟨system.memory, system.next, []⟩
  { system with
    handler := .encoding page.names
      (fitListReading request.budget (encodeReading page.moreFollows) page.names.length) }

/-- A call has the lock and computed its writes. -/
def begun (grow : Nat → Nat → Nat) (system : System Any) (call : Call Any) : System Any :=
  let (_, registry, heap) :=
    call.perform (sliceOps grow) system.registry ⟨system.memory, system.next, []⟩
  { system with registry := registry, next := heap.next, pending := heap.log }

def step (grow : Nat → Nat → Nat) (system : System Any) : Event Any → Option (System Any)
  | .begin call =>
    match system.pending with
    | [] => some (system.begun grow call)
    | _ :: _ => none
  | .write =>
    match system.pending with
    | [] => none
    | write :: writes =>
      some { system with memory := write.apply system.memory, pending := writes }
  | .list request =>
    match system.pending, system.handler with
    | [], .idle | [], .finished _ => some (system.listed grow request)
    | _, _ => none
  | .read =>
    match system.handler with
    | .encoding _ (.done response) => some { system with handler := .finished response }
    | .encoding page (.read index next) =>
      some { system with handler := .encoding page (next (page.get system.memory index)) }
    | _ => none

/-- The step does not write into a page that is being encoded. -/
def Undisturbed (system : System Any) : Event Any → Prop
  | .write => ∀ write ∈ system.pending.head?, ∀ page ∈ system.handler.page?,
      ¬page.covers write.array write.index
  | _ => True

instance (system : System Any) (event : Event Any) : Decidable (system.Undisturbed event) :=
  match event with
  | .write => inferInstanceAs (Decidable (∀ write ∈ system.pending.head?,
      ∀ page ∈ system.handler.page?, ¬page.covers write.array write.index))
  | .begin _ | .list _ | .read => .isTrue trivial

end System

/-- The calls of a run are on plain names. -/
def WellNamed (events : List (Event Any)) : Prop :=
  ∀ call, Event.begin call ∈ events → call.WellNamed

/-- At a moment of the run the handler listed a page of this list. -/
def ListedAt (grow : Nat → Nat → Nat) (events : List (Event Any)) (request : Request)
    (list : List Octets) : Prop :=
  ∃ before system, before ++ [.list request] <+: events ∧
    Machine.run (System.step grow) (System.new grow : System Any) before = some system ∧
    system.listAt grow request.listing = list

/-- The response carries the first names of the page of a list as it was at one moment; on plain
names they are ascending, so no name is there twice. -/
def IsSnapshot (grow : Nat → Nat → Nat) (events : List (Event Any)) (octets : Octets) : Prop :=
  ∃ names moreFollows request list, octets = marshalGetNameListResponse names moreFollows ∧
    ListedAt grow events request list ∧
    names <+: (paginate listOps list request.continueAfter request.maxNames ()).names ∧
    (WellNamed events → Ascending names)

/-! ## The invariant -/

/-- The slice a listing returns holds the page of the list in memory. -/
theorem elements_page (system : System Any) (request : Request) :
    let page := system.registry.list (sliceOps grow) request.listing request.continueAfter
      request.maxNames ⟨system.memory, system.next, []⟩
    let list := paginate listOps (system.listAt grow request.listing) request.continueAfter
      request.maxNames ()
    page.names.elements system.memory = list.names ∧ page.moreFollows = list.moreFollows := by
  refine ⟨?_, rfl⟩
  refine elements_sub _ ?_
  have bounds := pageBounds_le (system.listAt grow request.listing) request.continueAfter
    request.maxNames
  rwa [System.listAt, length_elements] at bounds

/-- The response to a request whose page is cut from this list. -/
def expected (request : Request) (list : List Octets) : Except PageError Octets :=
  let page := paginate listOps list request.continueAfter request.maxNames ()
  fitList request.budget
    (fun k truncated => .ok
      (marshalGetNameListResponse (page.names.take k) (truncated || page.moreFollows)))
    .responseTooLarge page.names.length

/-- Where the handler is, it is on the way to the response of a list of the run. -/
def OnCourse (grow : Nat → Nat → Nat) (events : List (Event Any)) (system : System Any) : Prop :=
  match system.handler with
  | .idle => True
  | .encoding page program => ∃ request list, ListedAt grow events request list ∧
      (WellNamed events → Ascending list) ∧ program.Within page.length ∧
      program.eval (page.get system.memory) = expected request list
  | .finished response => ∃ request list, ListedAt grow events request list ∧
      (WellNamed events → Ascending list) ∧ response = expected request list

structure Kept (grow : Nat → Nat → Nat) (events : List (Event Any)) (system : System Any) :
    Prop where
  reached : Machine.run (System.step grow) (System.new grow : System Any) events = some system
  lists : ∃ lists, Represents grow system.registry (applyAll system.pending system.memory)
    system.next lists ∧ (WellNamed events → lists.Consistent)
  course : OnCourse grow events system

theorem ListedAt.snoc {events : List (Event Any)} {request : Request} {list : List Octets}
    (listed : ListedAt grow events request list) (event : Event Any) :
    ListedAt grow (events ++ [event]) request list := by
  obtain ⟨before, system, early, rest⟩ := listed
  exact ⟨before, system, early.trans (List.prefix_append _ _), rest⟩

theorem WellNamed.of_snoc {events : List (Event Any)} {event : Event Any}
    (named : WellNamed (events ++ [event])) : WellNamed events := fun call member =>
  named call (List.mem_append_left _ member)

/-- The order lists of a consistent registry are ascending. -/
theorem ascending_orderOf {lists : Registry Any (List Octets)} (consistent : lists.Consistent)
    (listing : Registry.Listing) : Ascending (lists.orderOf listOps listing) := by
  cases listing with
  | domains => exact consistent.domainAscending
  | domainVariables inside => exact consistent.vars.ascending (.domain inside)
  | vmdVariables => exact consistent.vars.ascending .vmd
  | domainNVLs inside => exact consistent.nvls.ascending (.domain inside)
  | vmdNVLs => exact consistent.nvls.ascending .vmd

theorem kept_new : Kept grow [] (System.new grow : System Any) where
  reached := rfl
  lists := ⟨Registry.new listOps, represents_new _ _, fun _ => Registry.consistent_new⟩
  course := trivial

variable {events : List (Event Any)} {system next : System Any}

/-- A step of another party leaves the course if the page keeps its names. -/
theorem OnCourse.of_foreign (course : OnCourse grow events system) (event : Event Any)
    (handler : next.handler = system.handler)
    (page : ∀ page ∈ system.handler.page?, ∀ index < page.length,
      page.get next.memory index = page.get system.memory index) :
    OnCourse grow (events ++ [event]) next := by
  unfold OnCourse at course ⊢
  rw [handler]
  split
  · trivial
  · rename_i window program at_
    rw [at_] at course
    obtain ⟨request, list, listed, ascending, within, result⟩ := course
    refine ⟨request, list, listed.snoc event, fun named => ascending named.of_snoc, within, ?_⟩
    rw [← result]
    exact within.eval_congr (page window (by rw [at_]; rfl))
  rename_i response at_
  rw [at_] at course
  obtain ⟨request, list, listed, ascending, result⟩ := course
  exact ⟨request, list, listed.snoc event, fun named => ascending named.of_snoc, result⟩

/-! ## Steps -/

theorem Kept.begin (kept : Kept grow events system) {call : Call Any}
    (taken : system.step grow (.begin call) = some next) :
    Kept grow (events ++ [.begin call]) next := by
  have reached := Machine.run_snoc kept.reached taken
  obtain ⟨lists, represents, consistent⟩ := kept.lists
  simp only [System.step] at taken
  split at taken
  · rename_i free
    obtain rfl := Option.some.inj taken
    rw [free, applyAll_nil] at represents
    obtain ⟨-, follows⟩ := @Represents.perform grow Any system.registry lists
      ⟨system.memory, system.next, []⟩ represents call
    refine ⟨reached, ⟨_, ?_, fun named => (consistent named.of_snoc).perform
      (named call (List.mem_append_right _ (List.mem_singleton.mpr rfl)))⟩,
      kept.course.of_foreign _ rfl fun _ _ _ _ => rfl⟩
    -- memory with all writes made is what the call sees
    have complete := follows.logged system.memory rfl
    have represented := follows.represents
    rw [complete] at represented
    exact represented
  · cases taken

theorem Kept.write (kept : Kept grow events system) (undisturbed : system.Undisturbed .write)
    (taken : system.step grow .write = some next) :
    Kept grow (events ++ [.write]) next := by
  have reached := Machine.run_snoc kept.reached taken
  obtain ⟨lists, represents, consistent⟩ := kept.lists
  simp only [System.step] at taken
  split at taken
  · cases taken
  rename_i write writes first
  obtain rfl := Option.some.inj taken
  rw [first, applyAll_cons] at represents
  refine ⟨reached, ⟨lists, represents, fun named => consistent named.of_snoc⟩,
    kept.course.of_foreign _ rfl fun page encoded index inside => ?_⟩
  have missed := undisturbed write (by simp [first]) page encoded
  refine if_neg fun hit => missed ?_
  exact ⟨hit.1.symm, by omega, by omega⟩

/-- The program a listing starts computes the response of the list in memory. -/
theorem eval_listed (system : System Any) (request : Request) :
    let page := system.registry.list (sliceOps grow) request.listing request.continueAfter
      request.maxNames ⟨system.memory, system.next, []⟩
    (fitListReading request.budget (encodeReading page.moreFollows) page.names.length).eval
        (page.names.get system.memory) =
      expected request (system.listAt grow request.listing) := by
  intro page
  obtain ⟨elements, more⟩ := @elements_page _ grow system request
  rw [eval_fitListReading, expected]
  simp only [← elements, ← more, length_elements]
  refine fitList_congr fun k truncated inside => ?_
  rw [eval_encodeReading, ← take_elements page.names system.memory inside]

theorem Kept.list (kept : Kept grow events system) {request : Request}
    (taken : system.step grow (.list request) = some next) :
    Kept grow (events ++ [.list request]) next := by
  have reached := Machine.run_snoc kept.reached taken
  obtain ⟨lists, represents, consistent⟩ := kept.lists
  have started : system.pending = [] ∧ next = system.listed grow request := by
    simp only [System.step] at taken
    split at taken
    · next free _ => exact ⟨free, (Option.some.inj taken).symm⟩
    · next free _ => exact ⟨free, (Option.some.inj taken).symm⟩
    · cases taken
  obtain ⟨free, rfl⟩ := started
  refine ⟨reached, ⟨lists, represents, fun named => consistent named.of_snoc⟩, request,
    system.listAt grow request.listing, ⟨events, system, List.prefix_refl _, kept.reached, rfl⟩,
    fun named => ?_, ?_, eval_listed system request⟩
  · rw [free, applyAll_nil] at represents
    rw [System.listAt, represents.orders]
    exact ascending_orderOf (consistent named.of_snoc) request.listing
  · exact within_fitListReading fun k truncated inside => within_encodeReading inside _ _

theorem Kept.read (kept : Kept grow events system)
    (taken : system.step grow .read = some next) : Kept grow (events ++ [.read]) next := by
  have reached := Machine.run_snoc kept.reached taken
  obtain ⟨lists, represents, consistent⟩ := kept.lists
  have course := kept.course
  simp only [System.step] at taken
  split at taken
  · rename_i page response at_
    obtain rfl := Option.some.inj taken
    unfold OnCourse at course
    rw [at_] at course
    obtain ⟨request, list, listed, ascending, -, result⟩ := course
    exact ⟨reached, ⟨lists, represents, fun named => consistent named.of_snoc⟩, request, list,
      listed.snoc _, fun named => ascending named.of_snoc, result⟩
  · rename_i page index rest at_
    obtain rfl := Option.some.inj taken
    unfold OnCourse at course
    rw [at_] at course
    obtain ⟨request, list, listed, ascending, within, result⟩ := course
    exact ⟨reached, ⟨lists, represents, fun named => consistent named.of_snoc⟩, request, list,
      listed.snoc _, fun named => ascending named.of_snoc, within.2 _, result⟩
  · cases taken

/-- One step keeps the invariant. -/
theorem Kept.step (kept : Kept grow events system) {event : Event Any}
    (undisturbed : system.Undisturbed event) (taken : system.step grow event = some next) :
    Kept grow (events ++ [event]) next := by
  cases event with
  | begin call => exact kept.begin taken
  | write => exact kept.write undisturbed taken
  | list request => exact kept.list taken
  | read => exact kept.read taken

/-! ## Responses -/

/-- The response of a list carries the first names of its page. -/
theorem names_of_expected {request : Request} {list : List Octets} {octets : Octets}
    (responded : expected request list = .ok octets) :
    ∃ names moreFollows, octets = marshalGetNameListResponse names moreFollows ∧
      names <+: (paginate listOps list request.continueAfter request.maxNames ()).names := by
  unfold expected at responded
  obtain ⟨-, encoded⟩ := fitList_ok responded
  rcases encoded with whole | ⟨k, -, -, part⟩
  · exact ⟨_, _, (Except.ok.inj whole).symm, List.take_prefix _ _⟩
  · exact ⟨_, _, (Except.ok.inj part).symm, List.take_prefix _ _⟩

/-- The names on a page of an ascending list are ascending. -/
theorem ascending_page {list : List Octets} (ascending : Ascending list) (continueAfter : Octets)
    (maxNames : Int64) : Ascending (paginate listOps list continueAfter maxNames ()).names :=
  ascending.sublist ((List.take_sublist _ _).trans (List.drop_sublist _ _))

/-- In every run in which no write hits a page that is being encoded, every response that the
handler has finished is a snapshot. -/
theorem response_isSnapshot (grow : Nat → Nat → Nat) (events : List (Event Any))
    (undisturbed : Machine.AllSteps (System.step grow) System.Undisturbed (System.new grow) events)
    {final : System Any}
    (reached : Machine.run (System.step grow) (System.new grow) events = some final)
    {octets : Octets} (responded : final.handler = .finished (.ok octets)) :
    IsSnapshot grow events octets := by
  have kept : Kept grow ([] ++ events) final :=
    Machine.run_invariant_history (Kept grow)
      (fun _ _ _ _ undisturbed kept taken => kept.step undisturbed taken) [] kept_new undisturbed
      reached
  have course := kept.course
  unfold OnCourse at course
  rw [responded, List.nil_append] at course
  obtain ⟨request, list, listed, ascending, result⟩ := course
  obtain ⟨names, moreFollows, encoded, page⟩ := names_of_expected result.symm
  refine ⟨names, moreFollows, request, list, encoded, listed, page, fun named => ?_⟩
  exact (ascending_page (ascending named) _ _).sublist page.sublist

/-! ## Runs with and without a write into the page -/

/-- A VMD list with a name of one octet. -/
def listCall (octet : UInt8) : Call Unit := .defineNVL ⟨⟨0, [], [octet]⟩, true, []⟩

/-- Define the lists `a`, `b`, `c` and `d`, which fill an array of four cells, and take the page
of all of them. -/
def setupRun : List (Event Unit) :=
  [.begin (listCall 0x61), .write, .begin (listCall 0x62), .write, .begin (listCall 0x63), .write,
    .begin (listCall 0x64), .write, .list ⟨.vmdNVLs, [], 0, 1000⟩]

/-- After the first name is read, list `e` is defined, which moves the order list. -/
def defineDuringEncoding : List (Event Unit) :=
  setupRun ++ [.read, .begin (listCall 0x65), .write, .write, .write, .write, .write, .read, .read,
    .read, .read]

theorem response_isSnapshot_defineDuringEncoding :
    IsSnapshot (fun _ _ => 4) defineDuringEncoding
      (marshalGetNameListResponse [[0x61], [0x62], [0x63], [0x64]] false) := by
  have facts : (Machine.run (System.step fun _ _ => 4) (System.new fun _ _ => 4)
      defineDuringEncoding).map (fun system => system.handler.response?) =
      some (some (marshalGetNameListResponse [[0x61], [0x62], [0x63], [0x64]] false)) := by
    decide +kernel
  obtain ⟨final, reached, responded⟩ := Option.map_eq_some_iff.mp facts
  exact response_isSnapshot (fun _ _ => 4) defineDuringEncoding (by decide +kernel) reached
    (Handler.eq_of_response? responded)

/-- After the first name is read, list `a` is deleted, which shifts the others to the front. -/
def deleteDuringEncoding : List (Event Unit) :=
  setupRun ++ [.read, .begin (.deleteNVL ⟨0, [], [0x61]⟩), .write, .write, .write, .read, .read,
    .read, .read]

theorem wellNamed_deleteDuringEncoding : WellNamed deleteDuringEncoding := by
  intro call member
  have plain : ∀ octet : UInt8, octet ≠ 0x2f → (listCall octet).WellNamed := fun octet other =>
    ⟨.inl ⟨rfl, rfl⟩, List.not_mem_nil, by simpa using other.symm⟩
  simp only [deleteDuringEncoding, setupRun, List.cons_append, List.nil_append, List.mem_cons,
    Event.begin.injEq, reduceCtorEq, List.not_mem_nil, or_false, false_or] at member
  rcases member with rfl | rfl | rfl | rfl | rfl
  · exact plain _ (by decide)
  · exact plain _ (by decide)
  · exact plain _ (by decide)
  · exact plain _ (by decide)
  · trivial

/-- The response then lists `a`, `c`, `d` and `d` again, which is no page of any list. -/
theorem response_notSnapshot :
    (Machine.run (System.step fun _ _ => 4) (System.new fun _ _ => 4)
        deleteDuringEncoding).map (fun system => system.handler.response?) =
      some (some (marshalGetNameListResponse [[0x61], [0x63], [0x64], [0x64]] false)) ∧
    ¬IsSnapshot (fun _ _ => 4) deleteDuringEncoding
      (marshalGetNameListResponse [[0x61], [0x63], [0x64], [0x64]] false) := by
  refine ⟨by decide +kernel, ?_⟩
  rintro ⟨names, moreFollows, -, -, encoded, -, -, ascending⟩
  have decoded : unmarshalGetNameListResponse (marshalGetNameListResponse names moreFollows) =
      .ok ⟨[[0x61], [0x63], [0x64], [0x64]], false⟩ := by
    rw [← encoded]
    decide +kernel
  have size : (marshalGetNameListResponse names moreFollows).length ≤ maxIdentifierLen := by
    rw [← encoded]
    decide +kernel
  have same := unmarshal_marshalGetNameListResponse
    (fun name member => (length_le_marshal member).trans size)
    (lt_of_le_of_lt size (by decide)) decoded
  obtain rfl : [[0x61], [0x63], [0x64], [0x64]] = names := congrArg GetNameListResult.names same
  exact absurd (ascending wellNamed_deleteDuringEncoding) (by decide)

end GoMms.Server.Snapshot
