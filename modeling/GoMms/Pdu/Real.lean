import GoMms.Pdu.Leaf

/-!
# REAL contents

The binary form of ASN.1 REAL in `internal/pdu/data.go`: an information octet, an exponent
and an unsigned mantissa. A float64 is its bit pattern. The scaling by a power of two is the
platform's.
-/

namespace GoMms.Pdu

open Octets Berutil

/-- The loop `for mantissa != 0 && mantissa&1 == 0 { mantissa >>= 1; exponent++ }`. -/
def stripTrailingZeros (mantissa : UInt64) (exponent : Int64) : UInt64 × Int64 :=
  if mantissa ≠ 0 ∧ mantissa % 2 = 0 then stripTrailingZeros (mantissa / 2) (exponent + 1)
  else (mantissa, exponent)
termination_by mantissa.toNat
decreasing_by
  next even =>
    have positive : mantissa.toNat ≠ 0 := fun same => even.1 (UInt64.toNat_inj.mp same)
    rw [UInt64.toNat_div]
    exact Nat.div_lt_self (Nat.pos_of_ne_zero positive) (by decide)

/-- The two low bits of the information octet: the width of the exponent. -/
def exponentForm (width : Nat) : UInt8 :=
  match width with
  | 1 => 0x00
  | 2 => 0x01
  | 3 => 0x02
  | _ => 0x03

def encodeASN1Real (bits : UInt64) : Octets :=
  let sign := bits >>> 63 != 0
  let rawExp := (bits >>> 52) &&& 0x7ff
  let frac := bits &&& 0xfffffffffffff
  if rawExp = 0 ∧ frac = 0 then if sign then [0x43] else []
  else if rawExp = 0x7ff ∧ frac = 0 then if sign then [0x41] else [0x40]
  else if rawExp = 0x7ff then [0x42]
  else
    let (mantissa, exponent) :=
      if rawExp = 0 then stripTrailingZeros frac (-1022 - 52)
      else stripTrailingZeros (0x10000000000000 ||| frac) (rawExp.toInt64 - 1023 - 52)
    let mBytes := trimWhile (fun first _ => first == 0) (beOctets 8 mantissa.toNat)
    let eBytes := encodeSignedInt exponent
    let form := exponentForm eBytes.length
    let info : UInt8 := 0x80 ||| (if sign then 0x40 else 0) ||| form
    let width : Octets := if form = 0x03 then [UInt8.ofNat eBytes.length] else []
    info :: width ++ eBytes ++ mBytes

/-- The exponent width named by the information octet, and where the exponent starts. -/
def exponentWidth (info : UInt8) (rest : Octets) : Except String (Nat × Octets) :=
  match (info &&& 0x03).toNat, rest with
  | 0, _ => .ok (1, rest)
  | 1, _ => .ok (2, rest)
  | 2, _ => .ok (3, rest)
  | _, [] => .error "REAL: missing exponent length"
  | _, width :: rest => .ok (width.toNat, rest)

/-- `log2` of the base in bits 5 and 6 of the information octet. -/
def realBaseShift (info : UInt8) : Except String Int64 :=
  match ((info >>> 4) &&& 0x03).toNat with
  | 0 => .ok 1
  | 1 => .ok 3
  | 2 => .ok 4
  | _ => .error "reserved REAL base encoding"

/-- The fields of a binary REAL: sign, mantissa and the exponent of two. -/
structure RealFields where
  negative : Bool
  mantissa : UInt64
  effectiveExp : Int64
  deriving DecidableEq, Repr

/-- The field extraction of `decodeASN1Real` after the special values. -/
def decodeRealFields (info : UInt8) (rest : Octets) : Except String RealFields := do
  let baseShift ← realBaseShift info
  let scalingFactor := ((info >>> 2) &&& 0x03).toUInt64.toInt64
  let (expLen, rest) ← exponentWidth info rest
  if expLen > rest.length then .error "REAL: exponent overflow"
  let exp ←
    match decodeSignedInt (rest.take expLen) with
    | .error text => .error ("REAL exponent: " ++ text)
    | .ok exp => .ok exp
  let mBytes := rest.drop expLen
  if mBytes.length = 0 then .error "REAL: missing mantissa"
  if mBytes.length > 8 then
    .error ("REAL: mantissa too large (" ++ toString mBytes.length ++ " bytes)")
  return ⟨info &&& 0x40 != 0, foldUInt64 0 mBytes, scalingFactor + exp * baseShift⟩

def decodeASN1Real (runtime : Runtime) (content : Octets) : Except String UInt64 :=
  match content with
  | [] => .ok 0
  | info :: rest =>
    if info = 0x40 then .ok 0x7ff0000000000000
    else if info = 0x41 then .ok 0xfff0000000000000
    else if info = 0x42 then .ok 0x7ff8000000000001
    else if info = 0x43 then .ok 0x8000000000000000
    else if info &&& 0x80 = 0 then .error "decimal/ISO 6093 REAL encoding not supported"
    else
      match decodeRealFields info rest with
      | .error text => .error text
      | .ok fields =>
        let result := runtime.scale fields.mantissa fields.effectiveExp
        .ok (if fields.negative then result ^^^ 0x8000000000000000 else result)

/-! ## Exponents -/

section Exponents

variable {info : UInt8} {rest : Octets} {fields : RealFields}

end Exponents

/-! ## Exact values -/

/-- The absolute value of a finite bit pattern: the fraction below an implicit leading bit, which a
subnormal number lacks. -/
def float64Abs (bits : UInt64) : ℚ :=
  let rawExp : ℕ := bits.toNat / 2 ^ 52 % 2 ^ 11
  let frac : ℕ := bits.toNat % 2 ^ 52
  if rawExp = 0 then frac * 2 ^ (-1074 : ℤ) else (2 ^ 52 + frac) * 2 ^ (rawExp - 1075 : ℤ)

/-- The loop keeps the value and stops at an odd mantissa. -/
theorem stripTrailingZeros_spec {mantissa : UInt64} {exponent : Int64} {width : Nat}
    (nonzero : mantissa.toNat ≠ 0) (narrow : mantissa.toNat < 2 ^ width)
    (low : -1074 ≤ exponent.toInt) (room : exponent.toInt + width ≤ 1024) :
    ∃ m e, stripTrailingZeros mantissa exponent = (m, e) ∧ m.toNat % 2 = 1 ∧
      -1074 ≤ e.toInt ∧ e.toInt ≤ 1024 ∧
      (m.toNat : ℚ) * 2 ^ e.toInt = mantissa.toNat * 2 ^ exponent.toInt := by
  have parity : ∀ word : UInt64, word % 2 = 0 ↔ word.toNat % 2 = 0 := fun word => by
    rw [← UInt64.toNat_inj, UInt64.toNat_mod]
    rfl
  induction width generalizing mantissa exponent with
  | zero => omega
  | succ width ih =>
    unfold stripTrailingZeros
    split
    · rename_i even
      have halves := (parity mantissa).mp even.2
      have half : (mantissa / 2).toNat = mantissa.toNat / 2 := rfl
      have next : (exponent + 1).toInt = exponent.toInt + 1 := by
        rw [Int64.toInt_add, Int64.toInt_one]
        exact Int.bmod_eq_of_le (by omega) (by omega)
      obtain ⟨m, e, stripped, odd, above, below, same⟩ :=
        @ih (mantissa / 2) (exponent + 1) (by omega) (by omega) (by omega) (by omega)
      refine ⟨m, e, stripped, odd, above, below, same.trans ?_⟩
      rw [half, next, zpow_add_one₀ two_ne_zero, Nat.cast_div (by omega) two_ne_zero]
      push_cast
      ring
    rename_i stop
    refine ⟨_, _, rfl, ?_, low, by omega, rfl⟩
    have odd : ¬mantissa.toNat % 2 = 0 := fun even =>
      stop ⟨fun zero => nonzero (congrArg UInt64.toNat zero), (parity mantissa).mpr even⟩
    omega

/-- The information octet that `encodeASN1Real` writes. -/
def realInfo (negative : Bool) (width : Nat) : UInt8 :=
  0x80 ||| (if negative then 0x40 else 0) ||| exponentForm width

theorem realInfo_fields (negative : Bool) {width : Nat} (short : width = 1 ∨ width = 2)
    (rest : Octets) :
    realBaseShift (realInfo negative width) = .ok 1 ∧
      exponentWidth (realInfo negative width) rest = .ok (width, rest) ∧
      ((realInfo negative width >>> 2) &&& 0x03).toUInt64.toInt64 = 0 ∧
      (realInfo negative width &&& 0x40 != 0) = negative ∧
      realInfo negative width &&& 0xbc = 0x80 := by
  rcases short with rfl | rfl <;> cases negative <;> exact ⟨rfl, rfl, rfl, rfl, rfl⟩

theorem decodeRealFields_realInfo (negative : Bool) {eBytes mBytes : Octets} {e : Int64}
    (exponent : decodeSignedInt eBytes = .ok e) (short : eBytes.length = 1 ∨ eBytes.length = 2)
    (some : mBytes ≠ []) (fits : mBytes.length ≤ 8) :
    decodeRealFields (realInfo negative eBytes.length) (eBytes ++ mBytes) =
      .ok ⟨negative, foldUInt64 0 mBytes, e⟩ := by
  obtain ⟨base, width, scaling, sign, -⟩ := realInfo_fields negative short (eBytes ++ mBytes)
  have present := List.length_pos_iff.mpr some
  simp only [decodeRealFields, base, width, scaling, sign, bind, Except.bind, List.take_left,
    List.drop_left, exponent, List.length_append]
  rw [if_neg (by omega), if_neg (by omega), if_neg (by omega)]
  simp [pure, Except.pure]

/-- What the encoder strips is the significand and the exponent of the number. -/
theorem encodeASN1Real_eq {bits : UInt64} (finite : bits.toNat / 2 ^ 52 % 2 ^ 11 ≠ 0x7ff)
    (nonzero : bits.toNat % 2 ^ 63 ≠ 0) :
    ∃ significand start, significand.toNat ≠ 0 ∧ significand.toNat < 2 ^ 53 ∧
      -1074 ≤ start.toInt ∧ start.toInt + 53 ≤ 1024 ∧
      float64Abs bits = significand.toNat * 2 ^ start.toInt ∧
      ∀ m e, stripTrailingZeros significand start = (m, e) →
        (encodeSignedInt e).length = 1 ∨ (encodeSignedInt e).length = 2 →
        encodeASN1Real bits =
          realInfo (decide (2 ^ 63 ≤ bits.toNat)) (encodeSignedInt e).length ::
            (encodeSignedInt e ++ trimWhile (fun first _ => first == 0) (beOctets 8 m.toNat)) := by
  have bound := bits.toNat_lt
  have sign : (bits >>> 63 != 0) = decide (2 ^ 63 ≤ bits.toNat) := by
    have shifted : (bits >>> 63).toNat = bits.toNat / 2 ^ 63 := by
      rw [UInt64.toNat_shiftRight, Nat.shiftRight_eq_div_pow]
      rfl
    rw [Bool.eq_iff_iff, bne_iff_ne, decide_eq_true_iff, ne_eq, ← UInt64.toNat_inj, shifted,
      UInt64.toNat_zero]
    omega
  have raw : ((bits >>> 52) &&& 0x7ff).toNat = bits.toNat / 2 ^ 52 % 2 ^ 11 := by
    rw [UInt64.toNat_and, UInt64.toNat_shiftRight, Nat.shiftRight_eq_div_pow]
    exact Nat.and_two_pow_sub_one_eq_mod _ 11
  have low : (bits &&& 0xfffffffffffff).toNat = bits.toNat % 2 ^ 52 := by
    rw [UInt64.toNat_and]
    exact Nat.and_two_pow_sub_one_eq_mod _ 52
  have leading : (0x10000000000000 ||| (bits &&& 0xfffffffffffff)).toNat =
      2 ^ 52 + bits.toNat % 2 ^ 52 := by
    rw [UInt64.toNat_or, low]
    exact (Nat.two_pow_add_eq_or_of_lt (Nat.mod_lt _ (Nat.two_pow_pos 52)) 1).symm
  have top : ¬(bits >>> 52) &&& 0x7ff = 0x7ff := fun same =>
    finite (raw.symm.trans (congrArg UInt64.toNat same))
  have form : ∀ width, width = 1 ∨ width = 2 → ¬exponentForm width = 0x03 := by
    rintro width (rfl | rfl) <;> decide
  unfold float64Abs encodeASN1Real
  simp only [sign, top, false_and, ↓reduceIte]
  by_cases subnormal : (bits >>> 52) &&& 0x7ff = 0
  · have zero : bits.toNat / 2 ^ 52 % 2 ^ 11 = 0 := raw.symm.trans (congrArg UInt64.toNat subnormal)
    have fraction : ¬bits &&& 0xfffffffffffff = 0 := fun same => by
      have none : bits.toNat % 2 ^ 52 = 0 := low.symm.trans (congrArg UInt64.toNat same)
      omega
    refine ⟨bits &&& 0xfffffffffffff, -1074, by omega, by omega, by decide, by decide, ?_, ?_⟩
    · rw [if_pos zero, low]
      rfl
    · intro m e stripped short
      simp only [subnormal, fraction, and_false, ↓reduceIte]
      rw [show (-1022 - 52 : Int64) = -1074 by decide, stripped]
      simp only [form _ short, ↓reduceIte, realInfo]
      rfl
  · have positive : ¬bits.toNat / 2 ^ 52 % 2 ^ 11 = 0 := fun zero =>
      subnormal (UInt64.toNat_inj.mp (raw.trans zero))
    have start : (((bits >>> 52) &&& 0x7ff).toInt64 - 1023 - 52).toInt =
        (bits.toNat / 2 ^ 52 % 2 ^ 11 : ℕ) - 1075 := by
      have word : ((bits >>> 52) &&& 0x7ff).toInt64.toInt =
          (bits.toNat / 2 ^ 52 % 2 ^ 11 : ℕ) := by
        rw [Int64.toInt, BitVec.toInt_eq_toNat_cond, ← raw]
        exact if_pos (by change 2 * ((bits >>> 52) &&& 0x7ff).toNat < 2 ^ 64; omega)
      have constants : (1023 : Int64).toInt = 1023 ∧ (52 : Int64).toInt = 52 := by decide
      rw [Int64.toInt_sub, Int64.toInt_sub, word, constants.1, constants.2, Int.bmod_sub_bmod,
        Int.bmod_eq_of_le (by omega) (by omega)]
      omega
    refine ⟨_, ((bits >>> 52) &&& 0x7ff).toInt64 - 1023 - 52, leading.trans_ne (by omega),
      leading.trans_lt (by omega), by omega, by omega, ?_, ?_⟩
    · rw [if_neg positive, leading, start]
      push_cast
      rfl
    · intro m e stripped short
      simp only [subnormal, false_and, ↓reduceIte]
      rw [stripped]
      simp only [form _ short, ↓reduceIte, realInfo]
      rfl

/-- The encoding of a finite number other than zero names base 2, no scaling and the sign, and
carries an odd mantissa whose multiple of a power of two is exactly the number; the decoder extracts
these parts. -/
theorem encodeASN1Real_exact {bits : UInt64} (finite : bits.toNat / 2 ^ 52 % 2 ^ 11 ≠ 0x7ff)
    (nonzero : bits.toNat % 2 ^ 63 ≠ 0) :
    ∃ (info : UInt8) (e : Int64) (m : UInt64) (mBytes : Octets),
      encodeASN1Real bits = info :: (encodeSignedInt e ++ mBytes) ∧
      info &&& 0xbc = 0x80 ∧ (info &&& 0x40 != 0) = decide (2 ^ 63 ≤ bits.toNat) ∧
      beNat mBytes = m.toNat ∧ m.toNat % 2 = 1 ∧ (m.toNat : ℚ) * 2 ^ e.toInt = float64Abs bits ∧
      decodeRealFields info (encodeSignedInt e ++ mBytes) =
        .ok ⟨decide (2 ^ 63 ≤ bits.toNat), m, e⟩ := by
  obtain ⟨significand, start, some, narrow, above, below, value, encoded⟩ :=
    encodeASN1Real_eq finite nonzero
  obtain ⟨m, e, stripped, odd, above, below, same⟩ :=
    stripTrailingZeros_spec some narrow above (by omega)
  have short : (encodeSignedInt e).length = 1 ∨ (encodeSignedInt e).length = 2 := by
    have minimal := isMinimal_encodeInt e
    have two := (minimal.length_le_iff_bounds 1).mpr
      (by rw [twosValue_encodeInt]; constructor <;> omega)
    have present := List.length_pos_iff.mpr minimal.1
    rw [encodeSignedInt_eq]
    omega
  have octets : beNat (trimWhile (fun first _ => first == 0) (beOctets 8 m.toNat)) = m.toNat := by
    rw [beNat_trimWhile_zero, beNat_beOctets_of_lt m.toNat_lt]
  obtain ⟨-, -, -, sign, base⟩ := realInfo_fields (decide (2 ^ 63 ≤ bits.toNat)) short []
  refine ⟨_, e, m, _, encoded m e stripped short, base, sign, octets, odd,
    same.trans value.symm, ?_⟩
  rw [decodeRealFields_realInfo _ (decodeSignedInt_encodeSignedInt e) short
    (trimWhile_ne_nil _ (by simp [beOctets]))
    ((length_trimWhile_le _ _).trans_eq (length_beOctets _ _))]
  have read : foldUInt64 0 (trimWhile (fun first _ => first == 0) (beOctets 8 m.toNat)) = m := by
    rw [← UInt64.toNat_inj, foldUInt64_toNat, octets]
    simp [Nat.mod_eq_of_lt m.toNat_lt]
  rw [read]

/-- A negative subnormal number. -/
theorem encodeASN1Real_exact_subnormal :
    ∃ (e : Int64) (m : UInt64), m.toNat % 2 = 1 ∧
      (m.toNat : ℚ) * 2 ^ e.toInt = float64Abs 0x8000000000000006 := by
  obtain ⟨-, e, m, -, -, -, -, -, odd, value, -⟩ :=
    @encodeASN1Real_exact 0x8000000000000006 (by decide) (by decide)
  exact ⟨e, m, odd, value⟩

end GoMms.Pdu
