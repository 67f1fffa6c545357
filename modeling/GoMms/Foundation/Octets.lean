import Mathlib.Tactic
import Mathlib.Order.Lex
import Mathlib.Data.List.Lex

/-!
# Octet strings

Big-endian readings of octet strings, fixed-width expansions of natural numbers, and
two's complement values. Everything here is about octets only: the wire formats that
use these readings are defined elsewhere.
-/

namespace GoMms

/-- A string of octets, most significant or first octet at the head. -/
abbrev Octets := List UInt8

/-- Octets are ordered by their numeric value. -/
instance octetOrder : LinearOrder UInt8 where
  le_refl _ := Nat.le_refl _
  le_trans _ _ _ := Nat.le_trans
  lt_iff_le_not_ge _ _ := Nat.lt_iff_le_and_not_ge
  le_antisymm _ _ below above := UInt8.toNat_inj.mp (Nat.le_antisymm below above)
  le_total first second := Nat.le_total first.toNat second.toNat
  toDecidableLE := fun first second => inferInstanceAs (Decidable (first.toNat ≤ second.toNat))
  toDecidableLT := fun first second => inferInstanceAs (Decidable (first.toNat < second.toNat))
  toDecidableEq := inferInstance

namespace Octets

/-- The natural number whose big-endian base-256 digits are the given octets. -/
def beNat (octets : Octets) : Nat :=
  octets.foldl (fun value octet => value * 256 + octet.toNat) 0

/-- The `width` low-order octets of `value`, most significant first. -/
def beOctets : (width value : Nat) → Octets
  | 0, _ => []
  | width + 1, value => UInt8.ofNat (value / 256 ^ width) :: beOctets width value

private theorem foldl_eq (octets : Octets) (start : Nat) :
    octets.foldl (fun value octet => value * 256 + octet.toNat) start =
      start * 256 ^ octets.length + beNat octets := by
  induction octets generalizing start with
  | nil => simp [beNat]
  | cons octet rest ih =>
    have tail : beNat (octet :: rest) = octet.toNat * 256 ^ rest.length + beNat rest := by
      simpa only [beNat, List.foldl_cons, Nat.zero_mul, Nat.zero_add] using ih octet.toNat
    rw [List.foldl_cons, ih, tail, List.length_cons, pow_succ]
    ring

@[simp] theorem beNat_nil : beNat [] = 0 := rfl

theorem beNat_cons (octet : UInt8) (rest : Octets) :
    beNat (octet :: rest) = octet.toNat * 256 ^ rest.length + beNat rest := by
  simp only [beNat, List.foldl_cons, Nat.zero_mul, Nat.zero_add]
  exact foldl_eq rest octet.toNat

theorem beNat_lt (octets : Octets) : beNat octets < 256 ^ octets.length := by
  induction octets with
  | nil => simp
  | cons octet rest ih =>
    have small : octet.toNat < 256 := octet.toNat_lt
    have bound : octet.toNat * 256 ^ rest.length + 256 ^ rest.length ≤
        256 * 256 ^ rest.length := by
      rw [← Nat.succ_mul]
      exact Nat.mul_le_mul_right _ small
    rw [beNat_cons, List.length_cons, pow_succ, Nat.mul_comm _ 256]
    omega

@[simp] theorem length_beOctets (width value : Nat) : (beOctets width value).length = width := by
  induction width with
  | zero => rfl
  | succ width ih => simp [beOctets, ih]

theorem beNat_beOctets (width value : Nat) :
    beNat (beOctets width value) = value % 256 ^ width := by
  induction width with
  | zero => simp [beOctets, Nat.mod_one]
  | succ width ih =>
    have split : value % 256 ^ (width + 1) =
        value / 256 ^ width % 256 * 256 ^ width + value % 256 ^ width := by
      rw [pow_succ, Nat.mod_mul, Nat.mul_comm (256 ^ width), Nat.add_comm]
    rw [beOctets, beNat_cons, length_beOctets, ih, split, UInt8.toNat_ofNat']

/-- Octet strings of one length are determined by their numeric value. -/
theorem beNat_injective {first second : Octets} (lengths : first.length = second.length)
    (values : beNat first = beNat second) : first = second := by
  induction first generalizing second with
  | nil => exact (List.length_eq_zero_iff.mp lengths.symm).symm
  | cons octet rest ih =>
    cases second with
    | nil => simp at lengths
    | cons other tail =>
      have sameLength : rest.length = tail.length := by simpa using lengths
      have restBound := beNat_lt rest
      have tailBound := beNat_lt tail
      have positive : 0 < 256 ^ tail.length := Nat.pow_pos (by decide)
      rw [beNat_cons, beNat_cons, sameLength] at values
      rw [sameLength] at restBound
      have heads : octet.toNat = other.toNat := by
        have left := Nat.mul_add_div positive octet.toNat (beNat rest)
        have right := Nat.mul_add_div positive other.toNat (beNat tail)
        rw [Nat.div_eq_of_lt restBound, Nat.mul_comm] at left
        rw [Nat.div_eq_of_lt tailBound, Nat.mul_comm] at right
        rw [values] at left
        omega
      have tails : beNat rest = beNat tail := by
        rw [heads] at values
        omega
      rw [UInt8.toNat_inj.mp heads, ih sameLength tails]

/-- Expanding the value of an octet string to its own width gives it back. -/
theorem beOctets_beNat (octets : Octets) : beOctets octets.length (beNat octets) = octets := by
  apply beNat_injective (length_beOctets _ _)
  rw [beNat_beOctets, Nat.mod_eq_of_lt (beNat_lt octets)]

theorem beNat_beOctets_of_lt {width value : Nat} (fits : value < 256 ^ width) :
    beNat (beOctets width value) = value := by
  rw [beNat_beOctets, Nat.mod_eq_of_lt fits]

end Octets
end GoMms
