import GoMms.Foundation.TwosComplement

/-!
# INTEGER contents

The integer primitives of `internal/berutil`, content octets only. A Go `int` is a 64-bit
word. Every encoder produces the shortest two's complement form; the decoders also accept
longer ones.
-/

namespace GoMms.Berutil

open Octets

def encodeInt (value : Int64) : Octets :=
  trimWhile redundant (wordOctets value)

/-- `EncodeUint32`: the significant octets, with a zero octet in front of a set sign bit. -/
def encodeUint32 (value : UInt32) : Octets :=
  if value = 0 then [0]
  else padPositive ((beOctets 4 value.toNat).foldl
    (fun buf octet => if 0 < buf.length || octet != 0 then buf ++ [octet] else buf) [])

def decodeInteger (data : Octets) : Except String Int64 :=
  if data.length = 0 then .error "empty INTEGER content"
  else if data.length > 4 then
    .error ("INTEGER too large (" ++ toString data.length ++ " bytes)")
  else .ok (foldSigned data)

def decodeInt32 (data : Octets) : Except String Int32 :=
  match decodeInteger data with
  | .error text => .error text
  | .ok value =>
    if value < -2147483648 ∨ value > 2147483647 then
      .error ("INTEGER " ++ toString value ++ " out of int32 range")
    else .ok value.toInt32

def decodeUnsigned (data : Octets) : Except String UInt32 :=
  match data with
  | [] => .error "empty unsigned INTEGER content"
  | lead :: _ =>
    if highBit lead then .error "unsigned INTEGER has negative encoding"
    else
      let digits := skipPad data
      if digits.length > 4 then
        .error ("unsigned INTEGER too large (" ++ toString digits.length ++ " bytes)")
      else .ok (foldUInt32 0 digits)

/-! ## Encoders -/

theorem isMinimal_encodeInt (value : Int64) : IsMinimal (encodeInt value) :=
  isMinimal_trimWhile (by simp [wordOctets, List.range, List.range.loop])

@[simp] theorem twosValue_encodeInt (value : Int64) :
    twosValue (encodeInt value) = value.toInt := by
  rw [encodeInt, twosValue_trimWhile_redundant, twosValue_wordOctets]

theorem length_encodeInt_le (value : Int64) : (encodeInt value).length ≤ 8 := by
  have trimmed := length_trimWhile_le redundant (wordOctets value)
  rw [wordOctets_eq, length_beOctets] at trimmed
  rwa [encodeInt, wordOctets_eq]

/-- Collecting octets from the first non-zero one on drops exactly the leading zeros. -/
private theorem foldl_significant (octets buf : Octets) :
    octets.foldl
        (fun buf octet => if 0 < buf.length || octet != 0 then buf ++ [octet] else buf) buf =
      if buf = [] then octets.dropWhile (· == 0) else buf ++ octets := by
  induction octets generalizing buf with
  | nil => split <;> simp_all
  | cons octet rest ih =>
    rw [List.foldl_cons, ih]
    by_cases empty : buf = []
    · by_cases zero : octet = 0 <;> simp [empty, zero]
    · have filled : 0 < buf.length := List.length_pos_of_ne_nil empty
      simp [empty, filled]

private theorem beNat_dropWhile_zero (octets : Octets) :
    beNat (octets.dropWhile (· == 0)) = beNat octets := by
  induction octets with
  | nil => rfl
  | cons octet rest ih =>
    rw [List.dropWhile_cons]
    split
    · next zero => rw [ih, beq_iff_eq.mp zero, beNat_zero_cons]
    · rfl

theorem encodeUint32_spec (value : UInt32) :
    IsMinimal (encodeUint32 value) ∧ twosValue (encodeUint32 value) = value.toNat ∧
      (encodeUint32 value).length ≤ 5 := by
  unfold encodeUint32
  split
  · rename_i zero
    subst zero
    exact ⟨⟨by simp, by simp⟩, by decide, by decide⟩
  rename_i nonzero
  rw [foldl_significant, if_pos rfl]
  have word : beNat (beOctets 4 value.toNat) = value.toNat := beNat_beOctets_of_lt value.toNat_lt
  have kept := beNat_dropWhile_zero (beOctets 4 value.toNat)
  have short : ((beOctets 4 value.toNat).dropWhile (· == 0)).length ≤ 4 :=
    (List.dropWhile_suffix _).length_le.trans (Nat.le_of_eq (length_beOctets _ _))
  have head := List.head?_dropWhile_not (· == 0) (beOctets 4 value.toNat)
  rw [word] at kept
  cases digits : (beOctets 4 value.toNat).dropWhile (· == 0) with
  | nil =>
    rw [digits] at kept
    exact (nonzero (UInt32.toNat_inj.mp kept.symm)).elim
  | cons octet rest =>
    rw [digits] at kept head short
    have lead : octet ≠ 0 := by simpa using head
    refine ⟨isMinimal_padPositive rest lead, ?_, ?_⟩
    · rw [twosValue_padPositive, kept]
    · exact (length_padPositive_le _).trans (by omega)

/-! ## Decoders -/

variable {data : Octets} {value : Int64}

theorem decodeInteger_eq (some : data ≠ []) (short : data.length ≤ 4) :
    ∃ value, decodeInteger data = .ok value ∧ value.toInt = twosValue data := by
  refine ⟨foldSigned data, ?_, foldSigned_toInt (by omega)⟩
  rw [decodeInteger, if_neg (by simpa using some), if_neg (by omega)]

theorem decodeInteger_ok (decoded : decodeInteger data = .ok value) :
    ∃ lead rest, data = lead :: rest ∧ rest.length ≤ 3 ∧ value.toInt = twosValue data := by
  cases data with
  | nil => cases decoded
  | cons lead rest =>
    have short : (lead :: rest).length ≤ 4 := by
      by_contra long
      rw [decodeInteger, if_neg (by simp), if_pos (by omega)] at decoded
      cases decoded
    obtain ⟨read, ok, whole⟩ := decodeInteger_eq (List.cons_ne_nil lead rest) short
    cases decoded.symm.trans ok
    exact ⟨lead, rest, rfl, Nat.le_of_succ_le_succ short, whole⟩

/-- The values of the int32 range fit the four octets `DecodeInteger` accepts. -/
theorem decodeInteger_of_minimal (minimal : IsMinimal data) (same : twosValue data = value.toInt)
    (above : -2 ^ 31 ≤ value.toInt) (below : value.toInt < 2 ^ 31) :
    decodeInteger data = .ok value := by
  have short : data.length ≤ 3 + 1 := (minimal.length_le_iff_bounds 3).mpr (by omega)
  obtain ⟨read, ok, whole⟩ := decodeInteger_eq minimal.1 short
  rw [ok, Int64.toInt_inj.mp (whole.trans same)]

/-- The int32 range, which is what `DecodeInteger` reads back. -/
def InInt32 (value : Int64) : Prop := -2 ^ 31 ≤ value.toInt ∧ value.toInt < 2 ^ 31

instance (value : Int64) : Decidable (InInt32 value) := inferInstanceAs (Decidable (_ ∧ _))

theorem decodeInteger_encodeInt (fits : InInt32 value) :
    decodeInteger (encodeInt value) = .ok value :=
  decodeInteger_of_minimal (isMinimal_encodeInt value) (twosValue_encodeInt value) fits.1 fits.2

theorem inInt32_of_nonneg (nonneg : 0 ≤ value.toInt) (small : value.toInt < 2 ^ 31) :
    InInt32 value :=
  ⟨by omega, small⟩

theorem inInt32_of_decodeInteger_ok (decoded : decodeInteger data = .ok value) : InInt32 value := by
  obtain ⟨lead, rest, rfl, short, whole⟩ := decodeInteger_ok decoded
  have power : (256 : Int) ^ rest.length ≤ 256 ^ 3 := pow_le_pow_right₀ (by decide) short
  obtain ⟨above, below⟩ := twosValue_bounds lead rest
  exact ⟨by omega, by omega⟩

/-- Outside of that range an encoding takes too many octets. -/
theorem inInt32_of_decodeInteger {read : Int64}
    (decoded : decodeInteger (encodeInt value) = .ok read) : InInt32 value := by
  have minimal := isMinimal_encodeInt value
  have short : (encodeInt value).length ≤ 3 + 1 := by
    by_contra long
    rw [decodeInteger, if_neg (by omega), if_pos (by omega)] at decoded
    cases decoded
  rw [minimal.length_le_iff_bounds 3, twosValue_encodeInt] at short
  exact ⟨by omega, by omega⟩

/-- `DecodeUnsigned` reads back the shortest two's complement form of an unsigned word. -/
theorem decodeUnsigned_eq {value : UInt32} (minimal : IsMinimal data)
    (same : twosValue data = value.toNat) : decodeUnsigned data = .ok value := by
  have fits : value.toNat < 256 ^ 4 := value.toNat_lt
  obtain ⟨lead, rest, rfl, clear, digits, short⟩ := minimal.unsigned_form same fits (by decide)
  simp only [decodeUnsigned, clear, Bool.false_eq_true, ↓reduceIte]
  rw [if_neg (by omega)]
  congr 1
  apply UInt32.toNat_inj.mp
  rw [foldUInt32_toNat, beNat_skipPad, digits]
  simp [Nat.mod_eq_of_lt value.toNat_lt]

theorem toNat_of_decodeUnsigned {value : UInt32} (decoded : decodeUnsigned data = .ok value) :
    (value.toNat : Int) = twosValue data := by
  cases data with
  | nil => cases decoded
  | cons lead rest =>
    simp only [decodeUnsigned] at decoded
    split_ifs at decoded with negative long
    cases decoded
    rw [foldUInt32_toNat, UInt32.toNat_zero, Nat.zero_mul, Nat.zero_add]
    exact beNat_skipPad_mod (Bool.eq_false_iff.mpr negative) (Nat.not_lt.mp long)

theorem decodeUnsigned_encodeUint32 (value : UInt32) :
    decodeUnsigned (encodeUint32 value) = .ok value :=
  decodeUnsigned_eq (encodeUint32_spec value).1 (encodeUint32_spec value).2.1

theorem inInt32_toInt64 (value : Int32) : InInt32 value.toInt64 := by
  have below := value.toInt_lt
  have above := value.le_toInt
  rw [InInt32, Int32.toInt_toInt64]
  exact ⟨above, below⟩

theorem decodeInt32_encodeInt (value : Int32) :
    decodeInt32 (encodeInt value.toInt64) = .ok value := by
  have fits := inInt32_toInt64 value
  have inside : ¬(value.toInt64 < -2147483648 ∨ value.toInt64 > 2147483647) := by
    rw [not_or, Int64.lt_iff_toInt_lt, gt_iff_lt, Int64.lt_iff_toInt_lt]
    exact ⟨not_lt.mpr fits.1, not_lt.mpr (Int.le_of_lt_add_one fits.2)⟩
  rw [decodeInt32, decodeInteger_encodeInt fits]
  simp only [inside, if_false, Int32.toInt32_toInt64]

end GoMms.Berutil
