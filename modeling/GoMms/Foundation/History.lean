import Mathlib.Tactic

/-!
# Histories

A history is a list of entries, oldest first. Its entries may each be justified by what happened
before them (`Justified`); the justification is checked once, when an entry is added. Entries that
begin and end an interval do so in an orderly way if an interval begins only when none is open and
ends only when it is the open one. Then no two intervals overlap (`ends_between`).
-/

namespace GoMms.History

universe u v

variable {Entry : Type u}

section Justified

variable {because : List Entry → Entry → Prop} {history : List Entry}

/-- Every entry holds because of those before it. -/
def Justified (because : List Entry → Entry → Prop) (history : List Entry) : Prop :=
  ∀ past entry future, history = past ++ entry :: future → because past entry

theorem justified_nil : Justified because [] := by
  intro past entry future split
  cases past <;> cases split

theorem Justified.snoc (justified : Justified because history) {entry : Entry}
    (reason : because history entry) : Justified because (history ++ [entry]) := by
  intro past other future split
  rcases List.eq_nil_or_concat future with rfl | ⟨earlier, last, rfl⟩
  · obtain ⟨rfl, same⟩ := List.append_inj' split rfl
    cases same
    exact reason
  · have regroup : past ++ other :: (earlier ++ [last]) = (past ++ other :: earlier) ++ [last] := by
      simp
    rw [List.concat_eq_append, regroup] at split
    exact justified past other earlier (List.append_inj' split rfl).1

theorem Justified.of_mem (justified : Justified because history) {entry : Entry}
    (member : entry ∈ history) :
    ∃ past future, history = past ++ entry :: future ∧ because past entry := by
  obtain ⟨past, future, split⟩ := List.append_of_mem member
  exact ⟨past, future, split, justified past entry future split⟩

end Justified

/-! ## Intervals -/

/-- The end points of an interval. -/
inductive Edge (Id : Type v) where
  | begins (id : Id)
  | ends (id : Id)

section Intervals

variable {Id : Type v} (edge : Entry → Option (Edge Id))

/-- The interval that is open after one more entry. -/
def openAfter (current : Option Id) (entry : Entry) : Option Id :=
  match edge entry with
  | none => current
  | some (.begins id) => some id
  | some (.ends _) => none

/-- The interval that is open at the end of a history. -/
def openInterval (history : List Entry) : Option Id :=
  history.foldl (openAfter edge) none

/-- An interval begins only when none is open, and the open one ends. -/
def Orderly (past : List Entry) (entry : Entry) : Prop :=
  match edge entry with
  | none => True
  | some (.begins _) => openInterval edge past = none
  | some (.ends id) => openInterval edge past = some id

variable {edge} {history before between after : List Entry} {first second : Entry} {id : Id}

@[simp] theorem openInterval_snoc (history : List Entry) (entry : Entry) :
    openInterval edge (history ++ [entry]) = openAfter edge (openInterval edge history) entry := by
  simp [openInterval]

/-- An interval stays open until it ends. -/
theorem openInterval_of_not_ended (orderly : Justified (Orderly edge) history)
    (begins : edge first = some (.begins id))
    (split : history = before ++ first :: (between ++ after))
    (unended : ∀ entry ∈ between, edge entry ≠ some (.ends id)) :
    openInterval edge (before ++ first :: between) = some id := by
  induction between using List.reverseRecOn generalizing after with
  | nil => simp [openAfter, begins]
  | append_singleton between entry ih =>
    have earlier := @ih (entry :: after) (by rw [split]; simp)
      fun other member => unended other (List.mem_append_left _ member)
    have place : before ++ first :: (between ++ [entry]) =
        (before ++ first :: between) ++ [entry] := by simp
    have reason := orderly (before ++ first :: between) entry after (by rw [split]; simp)
    rw [place, openInterval_snoc, earlier]
    unfold Orderly at reason
    unfold openAfter
    cases kind : edge entry with
    | none => rfl
    | some point =>
      rw [kind, earlier] at reason
      cases point with
      | begins other => cases reason
      | ends other =>
        cases reason
        exact absurd kind (unended entry (by simp))

/-- Between the beginnings of two intervals the first one ends. -/
theorem ends_between (orderly : Justified (Orderly edge) history)
    (begins : edge first = some (.begins id)) {other : Id}
    (again : edge second = some (.begins other))
    (split : history = before ++ first :: (between ++ second :: after)) :
    ∃ entry ∈ between, edge entry = some (.ends id) := by
  by_contra never
  have unended : ∀ entry ∈ between, edge entry ≠ some (.ends id) :=
    fun entry member ended => never ⟨entry, member, ended⟩
  have still := openInterval_of_not_ended orderly begins split unended
  have reason := orderly (before ++ first :: between) second after (by rw [split]; simp)
  unfold Orderly at reason
  rw [again, still] at reason
  cases reason

end Intervals

end GoMms.History
