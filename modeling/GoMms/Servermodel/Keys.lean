import GoMms.Servermodel.Registry

/-!
# Map keys

The maps of the registry are keyed by formatted names. Two names get the same key exactly when
they are equal or one arises from the other by moving a part between two slashes from the item
to the domain (`Shifted`). Names without slashes are therefore told apart by their keys.
-/

namespace GoMms.Servermodel

/-! ## Decimal numbers -/

private theorem digit_octet {digit : Nat} (small : digit < 10) :
    (UInt8.ofNat (0x30 + digit)).toNat - 0x30 = digit := by
  rw [UInt8.toNat_ofNat_of_lt' (by simp [UInt8.size]; omega)]
  omega

/-- The number can be read back from its digits. -/
theorem ofDigits_decimalNat (number : Nat) :
    Nat.ofDigits 10 ((decimalNat number).reverse.map fun octet => octet.toNat - 0x30) =
      number := by
  unfold decimalNat
  split
  · rename_i zero
    subst zero
    rfl
  · rw [← List.map_reverse, List.reverse_reverse, List.map_map]
    have same : (Nat.digits 10 number).map
        ((fun octet : UInt8 => octet.toNat - 0x30) ∘ fun digit => UInt8.ofNat (0x30 + digit)) =
        Nat.digits 10 number := by
      conv_rhs => rw [← List.map_id (Nat.digits 10 number)]
      exact List.map_congr_left fun digit member =>
        digit_octet (Nat.digits_lt_base (by decide) member)
    rw [same, Nat.ofDigits_digits]

theorem decimalNat_injective : Function.Injective decimalNat := by
  intro first second same
  rw [← ofDigits_decimalNat first, same, ofDigits_decimalNat]

/-- Digits are neither the minus sign nor the colon. -/
theorem digit_bounds {number : Nat} {octet : UInt8} (member : octet ∈ decimalNat number) :
    0x30 ≤ octet.toNat ∧ octet.toNat < 0x3a := by
  unfold decimalNat at member
  split at member
  · obtain rfl := List.mem_singleton.mp member
    decide
  · obtain ⟨digit, inside, rfl⟩ := List.mem_map.mp member
    have small : digit < 10 := Nat.digits_lt_base (by decide) (List.mem_reverse.mp inside)
    rw [UInt8.toNat_ofNat_of_lt' (by simp [UInt8.size]; omega)]
    omega

theorem colon_not_mem_decimal (value : Int64) : (0x3a : UInt8) ∉ decimal value := by
  intro member
  unfold decimal at member
  have digits : (0x3a : UInt8) ∈ decimalNat value.toInt.natAbs := by
    split at member
    · simpa using member
    · exact member
  have bounds := (digit_bounds digits).2
  exact absurd bounds (by decide)

theorem decimal_injective : Function.Injective decimal := by
  have noMinus : ∀ number rest, decimalNat number ≠ 0x2d :: rest := by
    intro number rest same
    have member : (0x2d : UInt8) ∈ decimalNat number := by rw [same]; exact List.mem_cons_self
    exact absurd (digit_bounds member).1 (by decide)
  intro first second same
  apply Int64.toInt_inj.mp
  unfold decimal at same
  split at same <;> split at same
  · have sizes := decimalNat_injective (List.cons.inj same).2
    omega
  · exact (noMinus _ _ same.symm).elim
  · exact (noMinus _ _ same).elim
  · have sizes := decimalNat_injective same
    omega

/-! ## Separators -/

/-- A string cut at two occurrences of a separator: the same cut twice, or one before the
other. -/
private theorem separator_cases {separator : UInt8} {front front' back back' : Octets}
    (same : front ++ separator :: back = front' ++ separator :: back') :
    (front = front' ∧ back = back') ∨
      (∃ middle, front' = front ++ separator :: middle ∧ back = middle ++ separator :: back') ∨
      ∃ middle, front = front' ++ separator :: middle ∧ back' = middle ++ separator :: back := by
  rcases List.append_eq_append_iff.mp same with ⟨part, longer, rest⟩ | ⟨part, longer, rest⟩
  · cases part with
    | nil =>
      simp only [List.append_nil, List.nil_append, List.cons.injEq, true_and] at longer rest
      exact .inl ⟨longer.symm, rest⟩
    | cons octet middle =>
      obtain ⟨rfl, tail⟩ := List.cons.inj rest
      exact .inr (.inl ⟨middle, longer, tail⟩)
  · cases part with
    | nil =>
      simp only [List.append_nil, List.nil_append, List.cons.injEq, true_and] at longer rest
      exact .inl ⟨longer, rest.symm⟩
    | cons octet middle =>
      obtain ⟨rfl, tail⟩ := List.cons.inj rest
      exact .inr (.inr ⟨middle, longer, tail⟩)

/-- `first` is `second` with a part between two slashes moved from the item to the domain. -/
def Shifted (first second : EntryName) : Prop :=
  first.scope = second.scope ∧
    ∃ middle, first.domain = second.domain ++ 0x2f :: middle ∧
      second.itemID = middle ++ 0x2f :: first.itemID

theorem format_eq_append (name : EntryName) :
    name.format = decimal name.scope ++ 0x3a :: (name.domain ++ 0x2f :: name.itemID) := by
  simp [EntryName.format]

theorem Shifted.format_eq {first second : EntryName} (shifted : Shifted first second) :
    first.format = second.format := by
  obtain ⟨scope, middle, domain, item⟩ := shifted
  simp [format_eq_append, scope, domain, item]

theorem format_eq_iff (first second : EntryName) :
    first.format = second.format ↔
      first = second ∨ Shifted first second ∨ Shifted second first := by
  constructor
  · intro same
    rw [format_eq_append, format_eq_append] at same
    -- no scope contains a colon, so the scopes and the rests agree
    rcases separator_cases same with ⟨scopes, rests⟩ | ⟨middle, longer, -⟩ | ⟨middle, longer, -⟩
    · have scope := decimal_injective scopes
      rcases separator_cases rests with ⟨domain, item⟩ | ⟨middle, domain, item⟩ |
        ⟨middle, domain, item⟩
      · cases first
        cases second
        simp only at scope domain item
        rw [scope, domain, item]
        exact .inl rfl
      · exact .inr (.inr ⟨scope.symm, middle, domain, item⟩)
      · exact .inr (.inl ⟨scope, middle, domain, item⟩)
    · exact (colon_not_mem_decimal second.scope (by rw [longer]; simp)).elim
    · exact (colon_not_mem_decimal first.scope (by rw [longer]; simp)).elim
  · rintro (rfl | shifted | shifted)
    · rfl
    · exact shifted.format_eq
    · exact shifted.format_eq.symm

/-- Two names share a key exactly when they are equal or shifted against each other. -/
theorem key_eq_iff (kind : EntryKind) (first second : EntryName) :
    kind.key first = kind.key second ↔
      first = second ∨ Shifted first second ∨ Shifted second first := by
  cases kind with
  | var => exact format_eq_iff first second
  | nvl => rw [EntryKind.key, EntryKind.key, List.append_cancel_left_eq, format_eq_iff]

/-- A name as the registry documents it: of the VMD without a domain or of a domain, and without
slashes. -/
structure Plain (name : EntryName) : Prop where
  scope : name.scope = 0 ∧ name.domain = [] ∨ name.scope = 1
  domain : 0x2f ∉ name.domain
  itemID : 0x2f ∉ name.itemID

/-- The key of a plain name belongs to no other name. -/
theorem Plain.key_inj {kind : EntryKind} {name other : EntryName} (plain : Plain name)
    (same : kind.key other = kind.key name) : other = name := by
  rcases (key_eq_iff kind other name).mp same with equal | ⟨-, middle, -, item⟩ |
    ⟨-, middle, domain, -⟩
  · exact equal
  · exact (plain.itemID (by rw [item]; simp)).elim
  · exact (plain.domain (by rw [domain]; simp)).elim

end GoMms.Servermodel
