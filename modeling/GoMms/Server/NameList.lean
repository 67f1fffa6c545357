import GoMms.Foundation.PageWalk
import GoMms.Pdu.NameList
import GoMms.Servermodel.Registry

/-!
# The server's pages of names

`handleGetNameList` cuts a page from an ordered list with `paginate` and shortens it with
`fitList` until the response fits the size negotiated for the connection. Every response that
goes out carries a page of the list.
-/

namespace GoMms.Server

open Servermodel Pdu PageWalk Sorted

/-! ## fitList -/

section FitList

variable {Error : Type} (budget : Int64) (encode : Nat → Bool → Except Error Octets)

/-- The search of `fitList` for the longest list that fits. -/
def fitSearch (lo hi : Int) (best : Option Octets) : Except Error (Option Octets) :=
  if lo ≤ hi then
    let mid := (lo + hi) / 2
    match encode mid.toNat true with
    | .error error => .error error
    | .ok octets =>
      if (octets.length : Int) ≤ budget.toInt then fitSearch (mid + 1) hi (some octets)
      else fitSearch lo (mid - 1) best
  else .ok best
termination_by (hi + 1 - lo).toNat

/-- `fitList`; `tooLarge` is `errResponseTooLarge`. -/
def fitList (tooLarge : Error) (n : Nat) : Except Error Octets :=
  match encode n false with
  | .error error => .error error
  | .ok full =>
    if (full.length : Int) ≤ budget.toInt then .ok full
    else
      match fitSearch budget encode 1 ((n : Int) - 1) none with
      | .error error => .error error
      | .ok none => .error tooLarge
      | .ok (some best) => .ok best

variable {budget encode}

variable {lo hi : Int} {octets : Octets} {other : Nat → Bool → Except Error Octets}

/-- What the search returns fits and encodes a list of a length it searched. -/
theorem fitSearch_ok {best : Option Octets} (positive : 1 ≤ lo)
    (done : fitSearch budget encode lo hi best = .ok (some octets)) :
    best = some octets ∨ (octets.length : Int) ≤ budget.toInt ∧
      ∃ k : Nat, lo ≤ k ∧ k ≤ hi ∧ encode k true = .ok octets := by
  fun_induction fitSearch budget encode lo hi best with
  | case1 => cases done
  | case2 lo hi best inside mid tried encoded fits ih =>
    rcases ih (by omega) done with same | ⟨small, k, above, below, made⟩
    · obtain rfl := Option.some.inj same
      exact .inr ⟨fits, _, by omega, by omega, encoded⟩
    · exact .inr ⟨small, k, by omega, below, made⟩
  | case3 lo hi best inside mid tried encoded large ih =>
    rcases ih positive done with same | ⟨small, k, above, below, made⟩
    · exact .inl same
    · exact .inr ⟨small, k, above, by omega, made⟩
  | case4 => exact .inl (Except.ok.inj done)

variable {tooLarge : Error} {n : Nat}

/-- A response that goes out fits and encodes the whole list or a proper part of it. -/
theorem fitList_ok (done : fitList budget encode tooLarge n = .ok octets) :
    (octets.length : Int) ≤ budget.toInt ∧
      (encode n false = .ok octets ∨ ∃ k, 1 ≤ k ∧ k < n ∧ encode k true = .ok octets) := by
  unfold fitList at done
  cases encoded : encode n false with
  | error error => simp [encoded] at done
  | ok full =>
    simp only [encoded] at done
    split_ifs at done with fits
    · obtain rfl := Except.ok.inj done
      exact ⟨fits, .inl rfl⟩
    · split at done
      · cases done
      · cases done
      rename_i best found
      obtain rfl := Except.ok.inj done
      rcases fitSearch_ok (le_refl 1) found with none | ⟨small, k, above, below, made⟩
      · cases none
      · exact ⟨small, .inr ⟨k, by omega, by omega, made⟩⟩

/-- The search finds a list if the shortest one fits. -/
theorem fitSearch_finds {single : Octets} (encoded : encode 1 true = .ok single)
    (fits : (single.length : Int) ≤ budget.toInt) {bound : Nat}
    (encodes : ∀ k ≤ bound, ∃ octets, encode k true = .ok octets) {lo hi : Int}
    {best : Option Octets} (positive : 1 ≤ lo) (below : hi ≤ bound)
    (ready : lo = 1 ∧ 1 ≤ hi ∨ best ≠ none) :
    ∃ octets, fitSearch budget encode lo hi best = .ok (some octets) := by
  fun_induction fitSearch budget encode lo hi best with
  | case1 lo hi best inside mid error failed =>
    obtain ⟨tried, made⟩ := encodes mid.toNat (by omega)
    simp [failed] at made
  | case2 lo hi best inside mid tried made small ih =>
    exact ih (by omega) below (.inr (Option.some_ne_none tried))
  | case3 lo hi best inside mid tried made large ih =>
    refine ih positive (by omega) (ready.imp_left fun first => ⟨first.1, ?_⟩)
    -- At length 1 the list would have fitted.
    by_contra low
    have one : mid.toNat = 1 := by omega
    rw [one, encoded] at made
    exact large (Except.ok.inj made ▸ fits)
  | case4 lo hi best outside =>
    obtain ⟨octets, rfl⟩ := Option.ne_none_iff_exists'.mp (ready.resolve_left (by omega))
    exact ⟨octets, rfl⟩

/-- A list goes out if every part of it can be encoded and a single element fits. -/
theorem fitList_finds (encodes : ∀ k truncated, k ≤ n → ∃ octets, encode k truncated = .ok octets)
    (short : n ≤ 1 → ∀ full, encode n false = .ok full → (full.length : Int) ≤ budget.toInt)
    (fits : 2 ≤ n → ∀ single, encode 1 true = .ok single → (single.length : Int) ≤ budget.toInt) :
    ∃ octets, fitList budget encode tooLarge n = .ok octets := by
  obtain ⟨full, whole⟩ := encodes n false le_rfl
  rw [fitList, whole]
  dsimp only
  split_ifs with small
  · exact ⟨full, rfl⟩
  · have long : 2 ≤ n := by
      by_contra few
      exact small (short (by omega) full whole)
    obtain ⟨single, encoded⟩ := encodes 1 true (by omega)
    obtain ⟨octets, found⟩ := @fitSearch_finds Error budget encode single encoded
      (fits long single encoded) n (fun k below => encodes k true below) 1 (n - 1) none le_rfl
      (by omega) (.inl ⟨rfl, by omega⟩)
    rw [found]
    exact ⟨octets, rfl⟩

/-- Only the lengths up to the bound are encoded. -/
theorem fitSearch_congr {bound : Nat}
    (agree : ∀ k truncated, k ≤ bound → encode k truncated = other k truncated) (below : hi ≤ bound)
    (best : Option Octets) :
    fitSearch budget encode lo hi best = fitSearch budget other lo hi best := by
  induction size : (hi + 1 - lo).toNat using Nat.strong_induction_on generalizing lo hi best with
  | h size ih =>
    rw [fitSearch, fitSearch.eq_def budget other]
    by_cases inside : lo ≤ hi
    · simp only [if_pos inside, agree _ true (show ((lo + hi) / 2).toNat ≤ bound by omega)]
      cases other ((lo + hi) / 2).toNat true with
      | error error => rfl
      | ok octets =>
        simp only
        rw [ih _ (by omega) below _ rfl, ih _ (by omega) (by omega) _ rfl]
    · rw [if_neg inside, if_neg inside]

theorem fitList_congr (agree : ∀ k truncated, k ≤ n → encode k truncated = other k truncated) :
    fitList budget encode tooLarge n = fitList budget other tooLarge n := by
  rw [fitList, fitList, agree n false (le_refl n),
    fitSearch_congr agree (show (n : Int) - 1 ≤ (n : Nat) by omega)]

end FitList

/-! ## Pages -/

/-- The list a page is served from, with the size of the page and of the response. -/
structure PageServer where
  names : List Octets
  pageSize : Int64
  budget : Int64
  ascending : Ascending names
  sized : ∀ name ∈ names, 1 ≤ name.length ∧ name.length ≤ maxIdentifierLen
  positive : 1 ≤ pageSize

/-- `errResourceOther`, the only error of a page. -/
inductive PageError where
  | responseTooLarge
  deriving DecidableEq, Repr

/-- The response of `handleGetNameList` once the list is chosen. -/
def PageServer.respond (server : PageServer) (continueAfter : Octets) : Except PageError Octets :=
  let result := paginate listOps server.names continueAfter server.pageSize ()
  fitList server.budget
    (fun k truncated => .ok
      (marshalGetNameListResponse (result.names.take k) (truncated || result.moreFollows)))
    .responseTooLarge result.names.length

/-- The index `paginate` starts from. -/
def pageStart (sorted : List Octets) (continueAfter : Octets) : Nat :=
  if continueAfter = [] then 0
  else
    match sorted.idxOf? continueAfter with
    | some index => index + 1
    | none => position sorted continueAfter

/-- The most names `paginate` puts on a page. -/
def pageLimit (maxNames : Int64) : Nat :=
  (if maxNames ≤ 0 then defaultPageSize else maxNames).toInt.toNat

theorem pageBounds_eq (sorted : List Octets) (continueAfter : Octets) (maxNames : Int64) :
    pageBounds sorted continueAfter maxNames =
      if sorted.length - pageStart sorted continueAfter ≤ pageLimit maxNames then
        (pageStart sorted continueAfter, sorted.length - pageStart sorted continueAfter, false)
      else (pageStart sorted continueAfter, pageLimit maxNames, true) :=
  rfl

theorem pageStart_le (sorted : List Octets) (continueAfter : Octets) :
    pageStart sorted continueAfter ≤ sorted.length := by
  unfold pageStart
  split
  · exact Nat.zero_le _
  · split
    · rename_i index found
      obtain ⟨inside, -⟩ := List.findIdx?_eq_some_iff_getElem.mp found
      exact inside
    · exact position_le _ _

/-- A page lies inside the list. -/
theorem pageBounds_le (sorted : List Octets) (continueAfter : Octets) (maxNames : Int64) :
    (pageBounds sorted continueAfter maxNames).1 +
      (pageBounds sorted continueAfter maxNames).2.1 ≤ sorted.length := by
  have start := pageStart_le sorted continueAfter
  rw [pageBounds_eq]
  split
  · simp only
    omega
  · simp only
    omega

variable {sorted : List Octets}

/-- Where `paginate` starts, the names behind the cursor start. -/
theorem drop_pageStart (ascending : Ascending sorted) (nonempty : ∀ name ∈ sorted, name ≠ [])
    (continueAfter : Octets) :
    sorted.drop (pageStart sorted continueAfter) = behind continueAfter sorted := by
  unfold pageStart
  by_cases first : continueAfter = []
  · subst first
    rw [if_pos rfl]
    refine (behind_eq_drop ?_ ?_).symm
    · intro name member
      cases member
    · intro name member
      obtain ⟨octet, rest, rfl⟩ :=
        List.exists_cons_of_ne_nil (nonempty name (List.mem_of_mem_drop member))
      exact List.nil_lt_cons octet rest
  · rw [if_neg first]
    cases found : sorted.idxOf? continueAfter with
    | some index =>
      have here : sorted[index]? = some continueAfter := by
        obtain ⟨inside, holds, -⟩ := List.findIdx?_eq_some_iff_getElem.mp found
        rw [List.getElem?_eq_getElem inside, eq_of_beq holds]
      change sorted.drop (index + 1) = _
      refine (behind_eq_drop ?_ ?_).symm
      · intro name member
        obtain ⟨other, at_⟩ := List.mem_iff_getElem?.mp member
        rw [List.getElem?_take] at at_
        split_ifs at at_ with before
        rcases Nat.lt_succ_iff_lt_or_eq.mp before with earlier | rfl
        · exact le_of_lt (ascending.lt_of_getElem? earlier at_ here)
        · exact le_of_eq (Option.some.inj (at_.symm.trans here))
      · intro name member
        obtain ⟨other, at_⟩ := List.mem_iff_getElem?.mp member
        rw [List.getElem?_drop] at at_
        exact ascending.lt_of_getElem? (by omega) here at_
    | none =>
      have absent : continueAfter ∉ sorted := List.idxOf?_eq_none_iff.mp found
      refine (behind_eq_drop ?_ ?_).symm
      · exact fun name member => le_of_lt (ascending.lt_of_mem_take member)
      · intro name member
        refine lt_of_le_of_ne (ascending.le_of_mem_drop member) ?_
        rintro rfl
        exact absent (List.mem_of_mem_drop member)

/-- `paginate` cuts a page. -/
theorem isPage_paginate (ascending : Ascending sorted) (nonempty : ∀ name ∈ sorted, name ≠ [])
    (continueAfter : Octets) {maxNames : Int64} (positive : 1 ≤ maxNames) :
    IsPage sorted continueAfter (paginate listOps sorted continueAfter maxNames ()).names
      (paginate listOps sorted continueAfter maxNames ()).moreFollows := by
  have cut := drop_pageStart ascending nonempty continueAfter
  have size : 1 ≤ maxNames.toInt := Int64.le_iff_toInt_le.mp positive
  have limit : pageLimit maxNames = maxNames.toInt.toNat := by
    have given : ¬maxNames ≤ 0 := by
      rw [Int64.le_iff_toInt_le]
      exact not_le.mpr (lt_of_lt_of_le Int.zero_lt_one size)
    rw [pageLimit, if_neg given]
  have remaining : (behind continueAfter sorted).length =
      sorted.length - pageStart sorted continueAfter := by
    rw [← cut, List.length_drop]
  by_cases last : sorted.length - pageStart sorted continueAfter ≤ pageLimit maxNames
  · have page : paginate listOps sorted continueAfter maxNames () =
        ⟨behind continueAfter sorted, false⟩ := by
      simp only [paginate, listOps, pageBounds_eq, if_pos last, cut]
      rw [← remaining, List.take_length]
    rw [page]
    exact ⟨List.prefix_refl _, fun _ => rfl, nofun⟩
  · have page : paginate listOps sorted continueAfter maxNames () =
        ⟨(behind continueAfter sorted).take (pageLimit maxNames), true⟩ := by
      simp only [paginate, listOps, pageBounds_eq, if_neg last, cut]
    rw [page]
    refine ⟨List.take_prefix _ _, nofun, fun _ => List.ne_nil_of_length_pos ?_⟩
    rw [List.length_take]
    omega

/-- What a client accepts of a response is a page of the server's list. -/
theorem PageServer.isPage_respond (server : PageServer) {continueAfter octets : Octets}
    {result : GetNameListResult} (responded : server.respond continueAfter = .ok octets)
    (accepted : unmarshalGetNameListResponse octets = .ok result) :
    IsPage server.names continueAfter result.names result.moreFollows := by
  have nonempty : ∀ name ∈ server.names, name ≠ [] := fun name member =>
    List.ne_nil_of_length_pos (server.sized name member).1
  have isPage := isPage_paginate server.ascending nonempty continueAfter server.positive
  unfold respond at responded
  set page := paginate listOps server.names continueAfter server.pageSize ()
  obtain ⟨fits, encoded⟩ := fitList_ok responded
  have machine : octets.length < 256 ^ 8 := by
    have bound := server.budget.toInt_lt
    omega
  have short : ∀ k, ∀ name ∈ page.names.take k, name.length ≤ maxIdentifierLen :=
    fun k name member =>
      (server.sized name (isPage.mem (List.mem_of_mem_take member)).1).2
  rcases encoded with whole | ⟨k, positive, shorter, part⟩
  · obtain rfl := Except.ok.inj whole
    rw [unmarshal_marshalGetNameListResponse (short _) machine accepted, List.take_length]
    exact isPage
  · obtain rfl := Except.ok.inj part
    rw [unmarshal_marshalGetNameListResponse (short _) machine accepted]
    exact isPage.truncate positive shorter

end GoMms.Server
