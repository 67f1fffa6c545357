import GoMms.Server.NameList

/-!
# Collecting a name list

`GetNameListAll` asks for page after page behind the last name it has. The server may answer
every request from another list; the loop walks those lists, so what it collects is ascending,
was listed, and misses nothing that was listed throughout.
-/

namespace GoMms.Mms

open Server Pdu PageWalk Sorted

/-! ## The client -/

inductive NameListError where
  | service (error : PageError)
  | decode (text : String)
  | stalled (token : Octets)
  deriving DecidableEq, Repr

/-- The text of an error of the client; `quote` is `fmt`'s `%q`. -/
def NameListError.text (quote : Octets → String) : NameListError → Option String
  | .service _ => none
  | .decode text => some ("mms: " ++ text)
  | .stalled token => some ("getnamelist: pagination stalled (continuation token " ++
      quote token ++ " did not advance)")

/-- `GetNameList` against a server that serves one page. -/
def getNameList (server : PageServer) (continueAfter : Octets) :
    Except NameListError GetNameListResult :=
  match server.respond continueAfter with
  | .error error => .error (.service error)
  | .ok octets =>
    match unmarshalGetNameListResponse octets with
    | .error text => .error (.decode text)
    | .ok result => .ok result

/-- The loop of `GetNameListAll` from request number `page` on: what it returns and how many
requests were made by then, or `none` while `fuel` requests do not suffice. -/
def getNameListLoop (servers : Nat → PageServer) : (fuel page : Nat) →
    (prevToken continueAfter : Octets) → (all : List Octets) →
      Option (Except NameListError (List Octets) × Nat)
  | 0, _, _, _, _ => none
  | fuel + 1, page, prevToken, continueAfter, all =>
    match getNameList (servers page) continueAfter with
    | .error error => some (.error error, page + 1)
    | .ok result =>
      let all := all ++ result.names
      if !result.moreFollows then some (.ok all, page + 1)
      else
        match result.names.getLast? with
        | none => some (.ok all, page + 1)
        | some nextToken =>
          if nextToken = prevToken then some (.error (.stalled nextToken), page + 1)
          else getNameListLoop servers fuel (page + 1) nextToken nextToken all

/-- `GetNameListAll` with an empty `ContinueAfter`; `servers` answers the requests in turn. -/
def getNameListAll (servers : Nat → PageServer) (fuel : Nat) :
    Option (Except NameListError (List Octets) × Nat) :=
  getNameListLoop servers fuel 0 [] [] []

/-! ## The loop walks the server's lists -/

variable {servers : Nat → PageServer}

theorem isPage_getNameList {server : PageServer} {continueAfter : Octets}
    {result : GetNameListResult} (answered : getNameList server continueAfter = .ok result) :
    IsPage server.names continueAfter result.names result.moreFollows := by
  unfold getNameList at answered
  split at answered
  · cases answered
  rename_i octets responded
  split at answered
  · cases answered
  rename_i accepted
  obtain rfl := Except.ok.inj answered
  exact server.isPage_respond responded accepted

/-- One pass: an error, the last page, or a page whose last name is the next cursor. -/
theorem getNameListLoop_succ (servers : Nat → PageServer) (fuel page : Nat) (cursor : Octets)
    (all : List Octets) :
    (∃ error, (∀ token, error ≠ .stalled token) ∧
      getNameListLoop servers (fuel + 1) page cursor cursor all = some (.error error, page + 1)) ∨
    (∃ names, IsPage (servers page).names cursor names false ∧
      getNameListLoop servers (fuel + 1) page cursor cursor all =
        some (.ok (all ++ names), page + 1)) ∨
    ∃ names last, IsPage (servers page).names cursor names true ∧ names.getLast? = some last ∧
      getNameListLoop servers (fuel + 1) page cursor cursor all =
        getNameListLoop servers fuel (page + 1) last last (all ++ names) := by
  cases answered : getNameList (servers page) cursor with
  | error error =>
    refine .inl ⟨error, ?_, by simp only [getNameListLoop, answered]⟩
    rintro token rfl
    unfold getNameList at answered
    split at answered
    · cases answered
    · split at answered <;> cases answered
  | ok result =>
    obtain ⟨names, more⟩ := result
    have isPage := isPage_getNameList answered
    cases more with
    | false => exact .inr (.inl ⟨names, isPage, by simp [getNameListLoop, answered]⟩)
    | true =>
      obtain ⟨last, ends⟩ : ∃ last, names.getLast? = some last :=
        ⟨_, List.getLast?_eq_getLast_of_ne_nil (isPage.advances rfl)⟩
      have advanced : last ≠ cursor := ne_of_gt (isPage.mem (List.mem_of_getLast? ends)).2
      refine .inr (.inr ⟨names, last, isPage, ends, ?_⟩)
      simp [getNameListLoop, answered, ends, advanced]

/-- The lists that answer the requests `page` to `pages - 1`. -/
def served (servers : Nat → PageServer) (page pages : Nat) : List (List Octets) :=
  (List.range' page (pages - page)).map fun index => (servers index).names

variable {page pages fuel : Nat} {cursor : Octets} {all : List Octets}

theorem mem_served {list : List Octets} :
    list ∈ served servers page pages ↔
      ∃ index, page ≤ index ∧ index < pages ∧ (servers index).names = list := by
  simp only [served, List.mem_map, List.mem_range'_1]
  constructor
  · rintro ⟨index, bounds, same⟩
    exact ⟨index, bounds.1, by omega, same⟩
  · rintro ⟨index, above, below, same⟩
    exact ⟨index, ⟨above, by omega⟩, same⟩

theorem served_cons (below : page < pages) :
    served servers page pages = (servers page).names :: served servers (page + 1) pages := by
  have count : pages - page = pages - (page + 1) + 1 := by omega
  rw [served, count, List.range'_succ]
  rfl

/-- What the loop adds is collected on a walk through the lists of the requests it makes. -/
theorem walk_of_getNameListLoop {collected : List Octets}
    (done : getNameListLoop servers fuel page cursor cursor all = some (.ok collected, pages)) :
    page < pages ∧ ∃ rest, collected = all ++ rest ∧
      Walk cursor (served servers page pages) rest := by
  induction fuel generalizing page cursor all with
  | zero => cases done
  | succ fuel ih =>
    rcases getNameListLoop_succ servers fuel page cursor all with
      ⟨error, -, ended⟩ | ⟨names, isPage, ended⟩ | ⟨names, last, isPage, ends, continued⟩
    · rw [ended] at done
      cases done
    · rw [ended] at done
      cases done
      refine ⟨Nat.lt_succ_self page, names, rfl, ?_⟩
      rw [served_cons (Nat.lt_succ_self page)]
      have none : served servers (page + 1) (page + 1) = [] := by simp [served]
      rw [none]
      exact .last isPage
    · rw [continued] at done
      obtain ⟨later, rest, rfl, walk⟩ := ih done
      have below : page < pages := by omega
      refine ⟨below, names ++ rest, List.append_assoc _ _ _, ?_⟩
      rw [served_cons below]
      exact .next isPage ends walk

theorem getNameListLoop_ne_stalled (token : Octets) :
    getNameListLoop servers fuel page cursor cursor all ≠
      some (.error (.stalled token), pages) := by
  induction fuel generalizing page cursor all with
  | zero => nofun
  | succ fuel ih =>
    intro stalled
    rcases getNameListLoop_succ servers fuel page cursor all with
      ⟨error, other, ended⟩ | ⟨names, -, ended⟩ | ⟨names, last, -, -, continued⟩
    · rw [ended] at stalled
      cases stalled
      exact other token rfl
    · rw [ended] at stalled
      cases stalled
    · rw [continued] at stalled
      exact ih stalled

/-- On a list that does not change the loop ends before it has made more requests than there are
names behind the cursor, and one. -/
theorem getNameListLoop_ends {list : List Octets} (same : ∀ page, (servers page).names = list)
    (enough : (behind cursor list).length < fuel) :
    (getNameListLoop servers fuel page cursor cursor all).isSome = true := by
  induction fuel generalizing page cursor all with
  | zero => exact absurd enough (Nat.not_lt_zero _)
  | succ fuel ih =>
    rcases getNameListLoop_succ servers fuel page cursor all with
      ⟨error, -, ended⟩ | ⟨names, -, ended⟩ | ⟨names, last, isPage, ends, continued⟩
    · rw [ended]
      rfl
    · rw [ended]
      rfl
    · rw [continued]
      have onPage := isPage.front.subset (List.mem_of_getLast? ends)
      rw [same] at onPage
      have fewer := length_behind_lt onPage
      exact ih (by omega)

/-! ## The collected list -/

theorem nil_lt_of_mem {server : PageServer} {name : Octets} (member : name ∈ server.names) :
    [] < name := by
  obtain ⟨octet, rest, rfl⟩ :=
    List.exists_cons_of_ne_nil (List.ne_nil_of_length_pos (server.sized name member).1)
  exact List.nil_lt_cons octet rest

/-- `GetNameListAll` returns an ascending list of names that were listed, with every name that
was on the lists of all its requests, and on a list that does not change exactly that list. It
never finds the pagination stalled, and on a list that does not change it returns. -/
theorem getNameListAll_collects (servers : Nat → PageServer) (fuel : Nat) :
    (∀ all pages, getNameListAll servers fuel = some (.ok all, pages) →
      Ascending all ∧
      (∀ name ∈ all, ∃ page < pages, name ∈ (servers page).names) ∧
      (∀ name, (∀ page < pages, name ∈ (servers page).names) → name ∈ all) ∧
      ∀ list, (∀ page < pages, (servers page).names = list) → all = list) ∧
    (∀ token pages, getNameListAll servers fuel ≠ some (.error (.stalled token), pages)) ∧
    ∀ list, (∀ page, (servers page).names = list) → list.length < fuel →
      (getNameListAll servers fuel).isSome = true := by
  refine ⟨?_, fun token pages => getNameListLoop_ne_stalled token, ?_⟩
  · intro all pages done
    obtain ⟨positive, rest, rfl, walk⟩ := walk_of_getNameListLoop done
    have ordered : ∀ list ∈ served servers 0 pages, Ascending list := by
      intro list member
      obtain ⟨page, -, -, rfl⟩ := mem_served.mp member
      exact (servers page).ascending
    refine ⟨walk.ascending ordered, ?_, ?_, ?_⟩
    · intro name member
      obtain ⟨-, list, known, listed⟩ := walk.sound member
      obtain ⟨page, -, below, rfl⟩ := mem_served.mp known
      exact ⟨page, below, listed⟩
    · intro name present
      refine walk.complete ordered (nil_lt_of_mem (present 0 positive)) ?_
      intro list known
      obtain ⟨page, -, below, rfl⟩ := mem_served.mp known
      exact present page below
    · intro list same
      have constant := walk.constant ((same 0 positive) ▸ (servers 0).ascending) (by
        intro other known
        obtain ⟨page, -, below, rfl⟩ := mem_served.mp known
        exact same page below)
      rw [constant, behind, List.filter_eq_self]
      intro name member
      rw [← same 0 positive] at member
      simpa using nil_lt_of_mem member
  · intro list same enough
    refine getNameListLoop_ends same (Nat.lt_of_le_of_lt ?_ enough)
    exact List.length_filter_le _ _

/-- Pages of two names in at most 10 octets: the first from `a`, `b`, `c`, the others from `b`,
`c`, `d`. -/
def changingServer : Nat → PageServer
  | 0 => ⟨[[0x61], [0x62], [0x63]], 2, 10, by decide, by decide, by decide⟩
  | _ + 1 => ⟨[[0x62], [0x63], [0x64]], 2, 10, by decide, by decide, by decide⟩

/-- The second page has to be shortened, and the loop returns all four names. -/
theorem getNameListAll_collects_changing :
    getNameListAll changingServer 4 = some (.ok [[0x61], [0x62], [0x63], [0x64]], 3) ∧
      Ascending [[0x61], [0x62], [0x63], [(0x64 : UInt8)]] :=
  have returned : getNameListAll changingServer 4 =
      some (.ok [[0x61], [0x62], [0x63], [0x64]], 3) := by decide +kernel
  ⟨returned, ((getNameListAll_collects changingServer 4).1 _ _ returned).1⟩

end GoMms.Mms
