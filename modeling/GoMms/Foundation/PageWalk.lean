import GoMms.Foundation.Sorted

/-!
# Walking an ascending list page by page

A reader collects an ascending list in pages: each request names the last element it has, the
cursor, and is answered with elements behind the cursor. The list may be another one at every
request. What makes the collected list right is said of one page, and every walk inherits it. A
reader that can only name a rounded cursor repeats elements, unless its pages end where rounding
changes nothing.
-/

namespace GoMms.PageWalk

open Sorted

universe u

variable {α : Type u} [LinearOrder α] {list page collected : List α} {cursor element : α}

/-- The elements behind the cursor. -/
def behind (cursor : α) (list : List α) : List α := list.filter fun element => cursor < element

theorem mem_behind : element ∈ behind cursor list ↔ element ∈ list ∧ cursor < element := by
  simp [behind]

/-- The elements behind the cursor start where the smaller ones end. -/
theorem behind_eq_drop {start : Nat} (front : ∀ element ∈ list.take start, element ≤ cursor)
    (rest : ∀ element ∈ list.drop start, cursor < element) :
    behind cursor list = list.drop start := by
  have none : (list.take start).filter (fun element => decide (cursor < element)) = [] :=
    List.filter_eq_nil_iff.mpr fun element member => by simpa using front element member
  have all : (list.drop start).filter (fun element => decide (cursor < element)) =
      list.drop start :=
    List.filter_eq_self.mpr fun element member => by simpa using rest element member
  rw [behind]
  conv_lhs => rw [← List.take_append_drop start list]
  rw [List.filter_append, none, all, List.nil_append]

/-- What is behind a later cursor is behind the earlier one. -/
theorem behind_behind (later : cursor ≤ element) (list : List α) :
    behind element (behind cursor list) = behind element list := by
  rw [behind, behind, behind, List.filter_filter]
  refine List.filter_congr fun other _ => ?_
  by_cases beyond : element < other
  · simp [beyond, lt_of_le_of_lt later beyond]
  · simp [beyond]

/-- Moving the cursor to an element behind it leaves fewer elements. -/
theorem length_behind_lt (member : element ∈ behind cursor list) :
    (behind element list).length < (behind cursor list).length := by
  rw [← behind_behind (mem_behind.mp member).2.le]
  exact List.length_filter_lt_length_iff_exists.mpr ⟨element, member, by simp⟩

/-- A page holds the first elements behind the cursor: all of them when no more follow, and at
least one otherwise. -/
structure IsPage (list : List α) (cursor : α) (page : List α) (more : Bool) : Prop where
  front : page <+: behind cursor list
  whole : more = false → page = behind cursor list
  advances : more = true → page ≠ []

/-- The lists that answer the requests of a walk and what the walk collects. -/
inductive Walk : (cursor : α) → (lists : List (List α)) → (collected : List α) → Prop
  | last {cursor : α} {list page : List α} : IsPage list cursor page false → Walk cursor [list] page
  | next {cursor last : α} {list page rest : List α} {lists : List (List α)} :
      IsPage list cursor page true → page.getLast? = some last → Walk last lists rest →
        Walk cursor (list :: lists) (page ++ rest)

/-! ## One page -/

namespace IsPage

variable {more : Bool}

section OnePage

variable (isPage : IsPage list cursor page more)

include isPage

theorem mem (member : element ∈ page) :
    element ∈ list ∧ cursor < element :=
  mem_behind.mp (isPage.front.subset member)

/-- A shortened page is a page that more elements follow. -/
theorem truncate {length : Nat} (positive : 1 ≤ length)
    (shorter : length < page.length) : IsPage list cursor (page.take length) true where
  front := (List.take_prefix length page).trans isPage.front
  whole := nofun
  advances _ := List.ne_nil_of_length_pos (by rw [List.length_take]; omega)

theorem ascending (ordered : Ascending list) :
    Ascending page :=
  ordered.sublist (isPage.front.sublist.trans List.filter_sublist)

variable {last : α}

/-- Whatever is behind the cursor and not behind the last element of the page is on the page. -/
theorem mem_of_le (ordered : Ascending list) (ends : page.getLast? = some last)
    (member : element ∈ list) (after : cursor < element) (le : element ≤ last) :
    element ∈ page := by
  obtain ⟨rest, split⟩ := isPage.front
  have total : element ∈ page ++ rest := split ▸ mem_behind.mpr ⟨member, after⟩
  have sorted : Ascending (page ++ rest) := split ▸ ordered.sublist List.filter_sublist
  rcases List.mem_append.mp total with here | later
  · exact here
  · have less := (List.pairwise_append.mp sorted).2.2 last (List.mem_of_getLast? ends) element later
    exact (not_lt_of_ge le less).elim

/-- The last element of an ascending page is its greatest. -/
theorem le_last (ordered : Ascending list) (ends : page.getLast? = some last)
    (member : element ∈ page) : element ≤ last := by
  obtain ⟨front, rfl⟩ := List.getLast?_eq_some_iff.mp ends
  rcases List.mem_append.mp member with earlier | same
  · exact le_of_lt ((List.pairwise_append.mp (isPage.ascending ordered)).2.2 element earlier last
      (List.mem_singleton.mpr rfl))
  · exact le_of_eq (List.mem_singleton.mp same)

/-- Behind the page follows what is behind its last element. -/
theorem behind_eq_append (ordered : Ascending list) (ends : page.getLast? = some last) :
    behind cursor list = page ++ behind last list := by
  obtain ⟨rest, split⟩ := isPage.front
  have sorted : Ascending (page ++ rest) := split ▸ ordered.sublist List.filter_sublist
  have after := (isPage.mem (List.mem_of_getLast? ends)).2
  have dropped : (page ++ rest).drop page.length = rest := List.drop_left
  have remaining : behind last (page ++ rest) = (page ++ rest).drop page.length := by
    refine behind_eq_drop ?_ ?_
    · intro element member
      rw [List.take_left] at member
      exact isPage.le_last ordered ends member
    · intro element member
      rw [dropped] at member
      exact (List.pairwise_append.mp sorted).2.2 last (List.mem_of_getLast? ends) element member
  rw [← behind_behind after.le, ← split, remaining, dropped]

end OnePage

end IsPage

/-! ## Walks -/

namespace Walk

variable {lists : List (List α)}

/-- Every collected element is behind the cursor and was on one of the lists. -/
theorem sound (walk : Walk cursor lists collected) (member : element ∈ collected) :
    cursor < element ∧ ∃ list ∈ lists, element ∈ list := by
  induction walk with
  | last isPage =>
    obtain ⟨listed, after⟩ := isPage.mem member
    exact ⟨after, _, List.mem_singleton.mpr rfl, listed⟩
  | next isPage ends _ ih =>
    rcases List.mem_append.mp member with here | later
    · obtain ⟨listed, after⟩ := isPage.mem here
      exact ⟨after, _, List.mem_cons_self, listed⟩
    · obtain ⟨after, list, known, listed⟩ := ih later
      have first := (isPage.mem (List.mem_of_getLast? ends)).2
      exact ⟨lt_trans first after, list, List.mem_cons_of_mem _ known, listed⟩

/-- Ascending lists are collected in ascending order. -/
theorem ascending (walk : Walk cursor lists collected)
    (ordered : ∀ list ∈ lists, Ascending list) : Ascending collected := by
  induction walk with
  | last isPage => exact isPage.ascending (ordered _ List.mem_cons_self)
  | next isPage ends rest ih =>
    have here := ordered _ List.mem_cons_self
    refine List.pairwise_append.mpr ⟨isPage.ascending here,
      ih fun list member => ordered list (List.mem_cons_of_mem _ member), ?_⟩
    intro first onPage second later
    exact lt_of_le_of_lt (isPage.le_last here ends onPage) (rest.sound later).1

/-- An element that is on every list is collected. -/
theorem complete (walk : Walk cursor lists collected)
    (ordered : ∀ list ∈ lists, Ascending list) (after : cursor < element)
    (present : ∀ list ∈ lists, element ∈ list) : element ∈ collected := by
  induction walk with
  | last isPage =>
    rw [isPage.whole rfl]
    exact mem_behind.mpr ⟨present _ List.mem_cons_self, after⟩
  | @next cursor last list page rest lists isPage ends _ ih =>
    by_cases le : element ≤ last
    · exact List.mem_append_left _ (isPage.mem_of_le (ordered _ List.mem_cons_self) ends
        (present _ List.mem_cons_self) after le)
    · refine List.mem_append_right _ (ih ?_ (not_le.mp le) ?_)
      · exact fun list member => ordered list (List.mem_cons_of_mem _ member)
      · exact fun list member => present list (List.mem_cons_of_mem _ member)

/-- A list that never changes is collected whole. -/
theorem constant (walk : Walk cursor lists collected) (ordered : Ascending list)
    (same : ∀ other ∈ lists, other = list) : collected = behind cursor list := by
  have eachOrdered : ∀ other ∈ lists, Ascending other := fun other member =>
    (same other member).symm ▸ ordered
  have sorted : Ascending (behind cursor list) := ordered.sublist List.filter_sublist
  refine List.Perm.eq_of_pairwise (fun _ _ _ _ less greater =>
    (lt_asymm less greater).elim) (walk.ascending eachOrdered) sorted ?_
  refine (List.perm_ext_iff_of_nodup (walk.ascending eachOrdered).nodup sorted.nodup).mpr ?_
  intro element
  rw [mem_behind]
  constructor
  · intro member
    obtain ⟨after, other, known, listed⟩ := walk.sound member
    exact ⟨same other known ▸ listed, after⟩
  · rintro ⟨listed, after⟩
    exact walk.complete eachOrdered after fun other known => (same other known).symm ▸ listed

end Walk

/-! ## Rounded cursors -/

/-- A walk through one list whose reader names not the last element it has, but what `round` makes
of it. The elements at which pages ended are those before the last page. -/
inductive RoundedWalk (round : α → α) (list : List α) :
    (cursor : α) → (ends collected : List α) → Prop
  | last {cursor : α} {page : List α} :
      IsPage list cursor page false → RoundedWalk round list cursor [] page
  | next {cursor last : α} {page ends rest : List α} :
      IsPage list cursor page true → page.getLast? = some last →
        RoundedWalk round list (round last) ends rest →
          RoundedWalk round list cursor (last :: ends) (page ++ rest)

namespace RoundedWalk

variable {round : α → α} {ends : List α}

/-- Rounding down repeats elements and misses none. -/
theorem length_le (walk : RoundedWalk round list cursor ends collected) (ordered : Ascending list)
    (down : ∀ element, round element ≤ element) :
    (behind cursor list).length ≤ collected.length := by
  induction walk with
  | last isPage => rw [isPage.whole rfl]
  | @next cursor last page ends rest isPage ended _ ih =>
    have fewer : (behind last list).length ≤ (behind (round last) list).length := by
      rw [← behind_behind (down last)]
      exact List.length_filter_le _ _
    rw [isPage.behind_eq_append ordered ended, List.length_append, List.length_append]
    omega

/-- What is behind the cursor is collected as it stands exactly if every page ends at an element
that is not changed by rounding. -/
theorem eq_behind_iff (walk : RoundedWalk round list cursor ends collected)
    (ordered : Ascending list) (down : ∀ element, round element ≤ element) :
    collected = behind cursor list ↔ ∀ last ∈ ends, round last = last := by
  induction walk with
  | last isPage => simp [isPage.whole rfl]
  | @next cursor last page ends rest isPage ended walk ih =>
    have member := (isPage.mem (List.mem_of_getLast? ended)).1
    rw [isPage.behind_eq_append ordered ended, List.append_cancel_left_eq, List.forall_mem_cons]
    constructor
    · intro same
      have exact : round last = last := by
        refine (down last).eq_or_lt.resolve_right fun below => ?_
        -- The last element itself is collected a second time.
        have again := length_behind_lt (mem_behind.mpr ⟨member, below⟩)
        have enough := walk.length_le ordered down
        rw [same] at enough
        omega
      exact ⟨exact, ih.mp (by rw [same, exact])⟩
    · rintro ⟨exact, later⟩
      rw [ih.mpr later, exact]

end RoundedWalk

end GoMms.PageWalk
