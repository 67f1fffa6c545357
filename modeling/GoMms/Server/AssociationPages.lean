import GoMms.Server.NameList
import GoMms.Server.NamedVarList

/-!
# Pages of association-scoped names

`listAssocNVLs` and `listAssocVars` of `server.go`, which list the names that belong to a
connection. They cut their pages as `paginate` does, but from the front of the list if the cursor
is not in it. A page therefore starts behind the cursor exactly if the cursor can still be found
or is smaller than every name (`Resumes`). The lists of a connection depend on nothing but its own
requests (`associationLists_ownRequests`).
-/

namespace GoMms.Server

open Servermodel Sorted Pdu

/-! ## Listings -/

/-- The variables of a connection, next to their names in order. -/
structure AssociationVariables (Any : Type) where
  assocVars : AList fun _ : Octets => VarEntry Any
  assocVarOrder : List Octets

/-- The index at which the listings of a connection start. -/
def assocStart (sorted : List Octets) (continueAfter : Octets) : Nat :=
  if continueAfter = [] then 0
  else
    match sorted.idxOf? continueAfter with
    | some index => index + 1
    | none => 0

/-- The page that starts at an index. -/
def pageFrom (sorted : List Octets) (start : Nat) (maxNames : Int64) :
    NameListResult (List Octets) :=
  let remaining := sorted.drop start
  let maxNames := (if maxNames ≤ 0 then 100 else maxNames).toInt.toNat
  if remaining.length > maxNames then ⟨remaining.take maxNames, true⟩ else ⟨remaining, false⟩

namespace AssociationVariables

variable {Any : Type}

/-- `registerAssocVar`; `none` is the error of a variable that is already defined. -/
def registerAssocVar (entry : VarEntry Any) (sc : AssociationVariables Any) :
    Option (AssociationVariables Any) :=
  if (sc.assocVars.lookup entry.itemID).isSome then none
  else some { sc with
    assocVars := sc.assocVars.insert entry.itemID entry
    assocVarOrder := insertSorted sc.assocVarOrder entry.itemID }

def listAssocVars (sc : AssociationVariables Any) (continueAfter : Octets) (maxNames : Int64) :
    NameListResult (List Octets) :=
  pageFrom sc.assocVarOrder (assocStart sc.assocVarOrder continueAfter) maxNames

end AssociationVariables

def AssociationLists.listAssocNVLs {Any : Type} (sc : AssociationLists Any)
    (continueAfter : Octets) (maxNames : Int64) : NameListResult (List Octets) :=
  pageFrom sc.assocNVLOrder (assocStart sc.assocNVLOrder continueAfter) maxNames

/-! ## Pages -/

section Pages

variable {sorted : List Octets} {continueAfter : Octets} {maxNames : Int64}

theorem pageLimit_pos (maxNames : Int64) : 0 < pageLimit maxNames := by
  unfold pageLimit
  split_ifs with default
  · decide
  · rw [Int64.le_iff_toInt_le] at default
    have positive : 0 < maxNames.toInt := Int.not_le.mp default
    omega

theorem paginate_eq_pageFrom (sorted : List Octets) (continueAfter : Octets) (maxNames : Int64) :
    paginate listOps sorted continueAfter maxNames () =
      pageFrom sorted (pageStart sorted continueAfter) maxNames := by
  have limit : (if maxNames ≤ 0 then 100 else maxNames).toInt.toNat = pageLimit maxNames := rfl
  simp only [paginate, listOps, pageBounds_eq, pageFrom, limit, List.length_drop]
  by_cases last : sorted.length - pageStart sorted continueAfter ≤ pageLimit maxNames
  · rw [if_pos last, if_neg (Nat.not_lt.mpr last)]
    simp only [NameListResult.mk.injEq, and_true]
    exact List.take_of_length_le (by rw [List.length_drop])
  · rw [if_neg last, if_pos (Nat.not_le.mp last)]

theorem names_pageFrom (sorted : List Octets) (start : Nat) (maxNames : Int64) :
    (pageFrom sorted start maxNames).names = (sorted.drop start).take (pageLimit maxNames) := by
  have limit : (if maxNames ≤ 0 then 100 else maxNames).toInt.toNat = pageLimit maxNames := rfl
  simp only [pageFrom, limit]
  split_ifs with long
  · rfl
  · exact (List.take_of_length_le (Nat.not_lt.mp long)).symm

/-- The first name of a list is on the page at its front. -/
theorem mem_pageFrom_zero (first : Octets) (rest : List Octets) (maxNames : Int64) :
    first ∈ (pageFrom (first :: rest) 0 maxNames).names := by
  rw [names_pageFrom]
  obtain ⟨limit, more⟩ := Nat.exists_eq_succ_of_ne_zero (pageLimit_pos maxNames).ne'
  rw [more]
  exact List.mem_cons_self

/-- The page at the front of a list is the page at no other index. -/
theorem pageFrom_zero_iff (distinct : sorted.Nodup) {start : Nat} (inside : start ≤ sorted.length) :
    pageFrom sorted 0 maxNames = pageFrom sorted start maxNames ↔ start = 0 := by
  refine ⟨fun same => ?_, fun zero => by rw [zero]⟩
  cases sorted with
  | nil => exact Nat.le_zero.mp inside
  | cons first rest =>
    have names := congrArg NameListResult.names same
    rw [names_pageFrom, names_pageFrom] at names
    have head : first ∈ (first :: rest).drop start := by
      suffices onPage : first ∈ ((first :: rest).drop start).take (pageLimit maxNames) from
        List.mem_of_mem_take onPage
      rw [← names, ← names_pageFrom]
      exact mem_pageFrom_zero first rest maxNames
    by_contra later
    obtain ⟨index, rfl⟩ := Nat.exists_eq_succ_of_ne_zero later
    exact (List.nodup_cons.mp distinct).1 (List.mem_of_mem_drop head)

/-- The cursor is the start of the list or in it, or every name is greater. -/
def Resumes (sorted : List Octets) (continueAfter : Octets) : Prop :=
  continueAfter = [] ∨ continueAfter ∈ sorted ∨ ∀ name ∈ sorted, continueAfter < name

theorem position_eq_zero_iff (ascending : Ascending sorted) (absent : continueAfter ∉ sorted) :
    position sorted continueAfter = 0 ↔ ∀ name ∈ sorted, continueAfter < name := by
  constructor
  · intro zero name member
    obtain ⟨index, found⟩ := List.mem_iff_getElem?.mp member
    have above : ¬name < continueAfter := by
      rw [ascending.lt_iff found, zero]
      exact Nat.not_lt_zero index
    refine lt_of_le_of_ne (not_lt.mp above) ?_
    rintro rfl
    exact absent member
  · intro above
    cases sorted with
    | nil => exact Nat.le_zero.mp (position_le [] continueAfter)
    | cons first rest =>
      have head : ¬first < continueAfter := not_lt.mpr (above first List.mem_cons_self).le
      rw [ascending.lt_iff (show (first :: rest)[0]? = some first from rfl)] at head
      exact Nat.le_zero.mp (Nat.not_lt.mp head)

/-- The listings of a connection cut the page of `paginate` if the cursor can be resumed. -/
theorem pageFrom_assocStart_iff (ascending : Ascending sorted) :
    pageFrom sorted (assocStart sorted continueAfter) maxNames =
        paginate listOps sorted continueAfter maxNames () ↔
      Resumes sorted continueAfter := by
  rw [paginate_eq_pageFrom]
  by_cases first : continueAfter = []
  · exact iff_of_true (by simp [assocStart, pageStart, first]) (.inl first)
  · cases found : sorted.idxOf? continueAfter with
    | some index =>
      have member : continueAfter ∈ sorted := by
        by_contra absent
        rw [List.idxOf?_eq_none_iff.mpr absent] at found
        cases found
      exact iff_of_true (by simp [assocStart, pageStart, first, found]) (.inr (.inl member))
    | none =>
      have absent : continueAfter ∉ sorted := List.idxOf?_eq_none_iff.mp found
      simp only [assocStart, pageStart, if_neg first, found]
      rw [pageFrom_zero_iff ascending.nodup (position_le _ _),
        position_eq_zero_iff ascending absent]
      exact ⟨fun above => .inr (.inr above), fun resumes =>
        (resumes.resolve_left first).resolve_left absent⟩

/-- The names on the page of a cursor are greater than the cursor if it can be resumed, and only
then. -/
theorem names_behind_iff (ascending : Ascending sorted) (given : continueAfter ≠ []) :
    (∀ name ∈ (pageFrom sorted (assocStart sorted continueAfter) maxNames).names,
        continueAfter < name) ↔ Resumes sorted continueAfter := by
  cases found : sorted.idxOf? continueAfter with
  | some index =>
    obtain ⟨inside, holds, -⟩ := List.findIdx?_eq_some_iff_getElem.mp found
    have here : sorted[index]? = some continueAfter := by
      rw [List.getElem?_eq_getElem inside, eq_of_beq holds]
    refine iff_of_true (fun name member => ?_) (.inr (.inl (List.mem_of_getElem? here)))
    simp only [assocStart, if_neg given, found, names_pageFrom] at member
    obtain ⟨other, there⟩ := List.mem_iff_getElem?.mp (List.mem_of_mem_take member)
    rw [List.getElem?_drop] at there
    exact ascending.lt_of_getElem? (by omega) here there
  | none =>
    have absent : continueAfter ∉ sorted := List.idxOf?_eq_none_iff.mp found
    simp only [assocStart, if_neg given, found]
    constructor
    · intro behind
      refine .inr (.inr fun name member => ?_)
      cases sorted with
      | nil => cases member
      | cons first rest =>
        have front := behind first (mem_pageFrom_zero first rest maxNames)
        rcases List.mem_cons.mp member with rfl | later
        · exact front
        · exact front.trans (List.rel_of_pairwise_cons ascending later)
    · intro resumes name member
      rw [names_pageFrom, List.drop_zero] at member
      exact (resumes.resolve_left given).resolve_left absent name (List.mem_of_mem_take member)

end Pages

/-- The listings of a connection are the pages of `paginate`, and hold names behind the cursor
only, if and only if the cursor is still in the list or smaller than all of it. -/
theorem listAssoc_paginate_iff {Any : Type} {sorted : List Octets} (ascending : Ascending sorted)
    (continueAfter : Octets) (maxNames : Int64) :
    (∀ sc : AssociationLists Any, sc.assocNVLOrder = sorted →
      (sc.listAssocNVLs continueAfter maxNames =
          paginate listOps sorted continueAfter maxNames () ↔ Resumes sorted continueAfter) ∧
      (continueAfter ≠ [] →
        ((∀ name ∈ (sc.listAssocNVLs continueAfter maxNames).names, continueAfter < name) ↔
          Resumes sorted continueAfter))) ∧
    ∀ sc : AssociationVariables Any, sc.assocVarOrder = sorted →
      (sc.listAssocVars continueAfter maxNames =
          paginate listOps sorted continueAfter maxNames () ↔ Resumes sorted continueAfter) ∧
      (continueAfter ≠ [] →
        ((∀ name ∈ (sc.listAssocVars continueAfter maxNames).names, continueAfter < name) ↔
          Resumes sorted continueAfter)) := by
  constructor
  · rintro sc rfl
    exact ⟨pageFrom_assocStart_iff ascending, names_behind_iff ascending⟩
  · rintro sc rfl
    exact ⟨pageFrom_assocStart_iff ascending, names_behind_iff ascending⟩

theorem listAssoc_paginate_member :
    Ascending ([[0x61], [0x62], [0x63]] : List Octets) ∧
      (⟨∅, [[0x61], [0x62], [0x63]]⟩ : AssociationVariables Unit).listAssocVars [0x62] 0 =
        paginate listOps [[0x61], [0x62], [0x63]] [0x62] 0 () := by
  have ascending : Ascending ([[0x61], [0x62], [0x63]] : List Octets) := by decide
  have both := @listAssoc_paginate_iff Unit _ ascending [0x62] 0
  exact ⟨ascending, (both.2 ⟨∅, _⟩ rfl).1.mpr (.inr (.inl (by decide)))⟩

/-- Three lists of a connection that its client may delete. -/
def threeLists : Option (AssociationLists Unit) :=
  let entry (name : UInt8) : NVLEntry := ⟨⟨2, [], [name]⟩, true, []⟩
  ((AssociationLists.defineAssocNVL (entry 0x61) ⟨⟨∅, ∅⟩, []⟩).bind
    (AssociationLists.defineAssocNVL (entry 0x62))).bind
      (AssociationLists.defineAssocNVL (entry 0x63))

/-- After the list that a client has read up to is deleted, its next page starts over, while
`paginate` goes on behind the deleted name. -/
theorem listAssoc_restarts :
    threeLists.map (fun sc => (sc.listAssocNVLs [] 2).names) = some [[0x61], [0x62]] ∧
      threeLists.map (fun sc => (sc.deleteAssocNVL [0x62]).1) = some true ∧
      threeLists.map (fun sc => ((sc.deleteAssocNVL [0x62]).2.listAssocNVLs [0x62] 2).names) =
        some [[0x61], [0x63]] ∧
      threeLists.map (fun sc => (paginate listOps (sc.deleteAssocNVL [0x62]).2.assocNVLOrder
        [0x62] 2 ()).names) = some [[0x63]] := by
  decide +kernel

/-! ## The lists of one connection -/

section Connection

variable {Any Conn : Type}

def AssociationLists.deleteName (lists : AssociationLists Any) (n : ObjectNameWire) :
    AssociationLists Any :=
  if n.scope = scopeAssociation then (lists.deleteAssocNVL n.itemID).2 else lists

/-- What a request does to the lists of the connection it comes from, as a function of these. -/
def AssociationLists.serve (lists : AssociationLists Any) (request : ListRequest Conn) :
    AssociationLists Any :=
  match request.service with
  | .define =>
    match unmarshalDefineNVLRequest request.body with
    | .error _ => lists
    | .ok req =>
      if req.listName.scope = scopeAssociation then
        (lists.defineAssocNVL (definedEntry req)).getD lists
      else lists
  | .attributes => lists
  | .delete =>
    match unmarshalDeleteNVLRequest request.body with
    | .error _ => lists
    | .ok req =>
      if req.scopeOfDelete = 0 then req.listNames.foldl AssociationLists.deleteName lists
      else if req.scopeOfDelete = 1 then lists.deleteAllAssocNVLs.2
      else lists

variable [DecidableEq Conn] {conn : Option Conn} {server : ListServer Conn Any} {sc : Conn}

theorem association_set (mine : Conn) (lists : AssociationLists Any) :
    (server.setAssociation mine lists).association sc =
      if some mine = some sc then lists else server.association sc := by
  simp [Function.update_apply, eq_comm]

theorem association_deleteNamed (state : (Nat × Nat) × ListServer Conn Any) (n : ObjectNameWire) :
    (ListServer.deleteNamed conn state n).2.association sc =
      if conn = some sc then (state.2.association sc).deleteName n else state.2.association sc := by
  unfold ListServer.deleteNamed AssociationLists.deleteName AssociationLists.deleteAssocNVL
  grind [association_set]

theorem association_foldl_deleteNamed (names : List ObjectNameWire)
    (state : (Nat × Nat) × ListServer Conn Any) :
    (names.foldl (ListServer.deleteNamed conn) state).2.association sc =
      if conn = some sc then names.foldl AssociationLists.deleteName (state.2.association sc)
      else state.2.association sc := by
  induction names generalizing state with
  | nil => simp
  | cons n names ih =>
    rw [List.foldl_cons, ih, association_deleteNamed]
    split_ifs <;> rfl

theorem association_handle (server : ListServer Conn Any) (request : ListRequest Conn) (sc : Conn) :
    (server.handle request).2.association sc =
      if request.conn = some sc then (server.association sc).serve request
      else server.association sc := by
  unfold ListServer.handle AssociationLists.serve
  cases request.service with
  | attributes => exact (ite_self _).symm
  | define =>
    unfold ListServer.handleDefineNVL
    grind [association_set]
  | delete =>
    unfold ListServer.handleDeleteNVL ListServer.deleteScoped
    grind [association_set, association_foldl_deleteNamed]

/-- The lists of a connection are what its own requests alone make of them. -/
theorem associationLists_ownRequests (server : ListServer Conn Any) (requests : List (ListRequest Conn))
    (sc : Conn) :
    (server.handleAll requests).association sc =
      (requests.filter (·.conn = some sc)).foldl AssociationLists.serve (server.association sc) := by
  induction requests generalizing server with
  | nil => rfl
  | cons request requests ih =>
    rw [ListServer.handleAll, List.foldl_cons, ← ListServer.handleAll, ih, association_handle,
      List.filter_cons]
    by_cases own : request.conn = some sc <;> simp [own]

end Connection

end GoMms.Server
