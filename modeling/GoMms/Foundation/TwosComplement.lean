import GoMms.Foundation.Octets

/-!
# Two's complement octet strings

The signed value of an octet string, the removal of redundant leading octets, and the
uniqueness of the shortest form. The accumulator loops that read octets into machine
words are related to the numeric readings here once.
-/

namespace GoMms.Octets

/-- The sign bit of an octet, the test `octet & 0x80 != 0`. -/
def highBit (octet : UInt8) : Bool := octet &&& 0x80 != 0

theorem highBit_iff (octet : UInt8) : highBit octet = true ↔ 128 ≤ octet.toNat := by
  have table : ∀ index : Fin 256, highBit (UInt8.ofNat index.val) = decide (128 ≤ index.val) := by
    decide +kernel
  have entry := table ⟨octet.toNat, octet.toNat_lt⟩
  rw [UInt8.ofNat_toNat] at entry
  rw [entry, decide_eq_true_eq]

theorem highBit_eq_false_iff (octet : UInt8) : highBit octet = false ↔ octet.toNat < 128 := by
  rw [← Bool.not_eq_true, highBit_iff]
  omega

/-- The two's complement value of an octet string; the empty string denotes zero. -/
def twosValue : Octets → Int
  | [] => 0
  | octet :: rest =>
    if highBit octet then (beNat (octet :: rest) : Int) - 256 ^ (rest.length + 1)
    else beNat (octet :: rest)

/-- A leading octet that repeats the sign bit of the octet after it. -/
def redundant (first second : UInt8) : Bool :=
  (first == 0x00 && !highBit second) || (first == 0xff && highBit second)

/-- Drop leading octets while the test on the first two octets holds. -/
def trimWhile (test : UInt8 → UInt8 → Bool) : Octets → Octets
  | first :: second :: rest =>
    if test first second then trimWhile test (second :: rest) else first :: second :: rest
  | short => short

/-- The shortest-form predicate: non-empty and without a redundant leading octet. -/
def IsMinimal (octets : Octets) : Prop :=
  octets ≠ [] ∧
    ∀ first second rest, octets = first :: second :: rest → redundant first second = false

/-! ## Values under trimming -/

variable {octet first second : UInt8} {octets : Octets} {value width : Nat}

theorem twosValue_cons_zero (rest : Octets) (clear : highBit octet = false) :
    twosValue (0 :: octet :: rest) = twosValue (octet :: rest) := by
  have lead : highBit 0 = false := by decide
  simp only [twosValue, lead, clear, Bool.false_eq_true, ↓reduceIte, beNat_cons 0]
  simp

theorem twosValue_cons_ones (rest : Octets) (set : highBit octet = true) :
    twosValue (0xff :: octet :: rest) = twosValue (octet :: rest) := by
  have lead : highBit 0xff = true := by decide
  have ones : (0xff : UInt8).toNat = 255 := rfl
  simp only [twosValue, lead, set, ↓reduceIte, beNat_cons 0xff, ones, List.length_cons]
  push_cast
  rw [pow_succ]
  ring

theorem twosValue_of_redundant (rest : Octets) (drop : redundant first second = true) :
    twosValue (first :: second :: rest) = twosValue (second :: rest) := by
  simp only [redundant, Bool.or_eq_true, Bool.and_eq_true, beq_iff_eq, Bool.not_eq_true'] at drop
  rcases drop with ⟨rfl, clear⟩ | ⟨rfl, set⟩
  · exact twosValue_cons_zero rest clear
  · exact twosValue_cons_ones rest set

theorem trimWhile_ne_nil (test : UInt8 → UInt8 → Bool) (some : octets ≠ []) :
    trimWhile test octets ≠ [] := by
  fun_induction trimWhile test octets with
  | case1 first second rest holds ih => exact ih (by simp)
  | case2 first second rest fails => simp
  | case3 short => exact some

theorem length_trimWhile_le (test : UInt8 → UInt8 → Bool) (octets : Octets) :
    (trimWhile test octets).length ≤ octets.length := by
  fun_induction trimWhile test octets with
  | case1 first second rest holds ih => simp only [List.length_cons] at ih ⊢; omega
  | case2 first second rest fails => exact Nat.le_refl _
  | case3 short => exact Nat.le_refl _

/-- After trimming, the test fails on the first two octets. -/
theorem trimWhile_stops (test : UInt8 → UInt8 → Bool) (octets : Octets) {rest : Octets}
    (shape : trimWhile test octets = first :: second :: rest) : test first second = false := by
  fun_induction trimWhile test octets with
  | case1 head next tail holds ih => exact ih shape
  | case2 head next tail fails =>
    cases shape
    exact Bool.eq_false_iff.mpr fails
  | case3 short long => exact (long _ _ _ shape).elim

theorem twosValue_trimWhile_redundant (octets : Octets) :
    twosValue (trimWhile redundant octets) = twosValue octets := by
  fun_induction trimWhile redundant octets with
  | case1 first second rest holds ih => rw [ih, twosValue_of_redundant rest holds]
  | case2 first second rest fails => rfl
  | case3 short => rfl

theorem isMinimal_trimWhile (some : octets ≠ []) : IsMinimal (trimWhile redundant octets) :=
  ⟨trimWhile_ne_nil _ some, fun _ _ _ shape => trimWhile_stops redundant octets shape⟩

/-! ## Ranges and uniqueness -/

/-- An octet string of length `n + 1` denotes a value of `8 (n + 1)` signed bits. -/
theorem twosValue_bounds (octet : UInt8) (rest : Octets) :
    -(128 * 256 ^ rest.length : Int) ≤ twosValue (octet :: rest) ∧
      twosValue (octet :: rest) < 128 * 256 ^ rest.length := by
  have restBound : (beNat rest : Int) < 256 ^ rest.length := by exact_mod_cast beNat_lt rest
  have restNonneg : (0 : Int) ≤ beNat rest := Int.natCast_nonneg _
  have power : (0 : Int) < 256 ^ rest.length := by positivity
  simp only [twosValue, beNat_cons, pow_succ]
  push_cast
  split
  · rename_i set
    have low : (128 : Int) ≤ octet.toNat := by exact_mod_cast (highBit_iff octet).mp set
    have high : (octet.toNat : Int) ≤ 255 := by
      have := octet.toNat_lt
      omega
    constructor <;> nlinarith
  rename_i clear
  have high : (octet.toNat : Int) ≤ 127 := by
    have := (highBit_eq_false_iff octet).mp (Bool.eq_false_iff.mpr clear)
    omega
  have low : (0 : Int) ≤ octet.toNat := Int.natCast_nonneg _
  constructor <;> nlinarith

/-- Without a redundant leading octet the value does not fit one octet less. -/
theorem twosValue_outside (rest : Octets) (keep : redundant first second = false) :
    twosValue (first :: second :: rest) < -(128 * 256 ^ rest.length : Int) ∨
      128 * 256 ^ rest.length ≤ twosValue (first :: second :: rest) := by
  have restBound : (beNat rest : Int) < 256 ^ rest.length := by exact_mod_cast beNat_lt rest
  have restNonneg : (0 : Int) ≤ beNat rest := Int.natCast_nonneg _
  have power : (0 : Int) < 256 ^ rest.length := by positivity
  have secondBound : (second.toNat : Int) ≤ 255 := by
    have := second.toNat_lt
    omega
  have secondNonneg : (0 : Int) ≤ second.toNat := Int.natCast_nonneg _
  simp only [redundant, Bool.or_eq_false_iff, Bool.and_eq_false_iff, beq_eq_false_iff_ne,
    Bool.not_eq_false'] at keep
  obtain ⟨notZero, notOnes⟩ := keep
  simp only [twosValue, beNat_cons, List.length_cons, pow_succ]
  push_cast
  split
  · rename_i set
    -- a negative string starts below 0xff, or continues with a clear sign bit
    left
    have headBound : (first.toNat : Int) ≤ 255 := by
      have := first.toNat_lt
      omega
    rcases notOnes with differ | clear
    · have head : (first.toNat : Int) ≤ 254 := by
        have : first.toNat ≠ 255 := fun equal => differ (UInt8.toNat_inj.mp equal)
        omega
      nlinarith
    · have next : (second.toNat : Int) ≤ 127 := by
        have := (highBit_eq_false_iff second).mp clear
        omega
      nlinarith
  rename_i clear
  -- a non-negative string starts above zero, or continues with a set sign bit
  right
  rcases notZero with differ | set
  · have head : (1 : Int) ≤ first.toNat := by
      have : first.toNat ≠ 0 := fun equal => differ (UInt8.toNat_inj.mp equal)
      omega
    nlinarith
  · have next : (128 : Int) ≤ second.toNat := by exact_mod_cast (highBit_iff second).mp set
    have head : (0 : Int) ≤ first.toNat := Int.natCast_nonneg _
    nlinarith

/-- A minimal string has `width + 1` octets at most exactly when its value fits them. -/
theorem IsMinimal.length_le_iff_bounds (minimal : IsMinimal octets) (width : Nat) :
    octets.length ≤ width + 1 ↔
      -(128 * 256 ^ width : Int) ≤ twosValue octets ∧ twosValue octets < 128 * 256 ^ width := by
  match octets, minimal with
  | [], minimal => exact (minimal.1 rfl).elim
  | [octet], _ =>
    have inside := twosValue_bounds octet []
    have power : (1 : Int) ≤ 256 ^ width := one_le_pow₀ (by decide)
    simp only [List.length_nil, pow_zero] at inside
    simp only [List.length_singleton]
    omega
  | first :: second :: rest, minimal =>
    have inside := twosValue_bounds first (second :: rest)
    have outside := twosValue_outside rest (minimal.2 first second rest rfl)
    simp only [List.length_cons] at inside ⊢
    constructor
    · intro short
      have grow : (256 : Int) ^ (rest.length + 1) ≤ 256 ^ width :=
        pow_le_pow_right₀ (by decide) (by omega)
      omega
    · intro fits
      by_contra long
      have grow : (256 : Int) ^ width ≤ 256 ^ rest.length :=
        pow_le_pow_right₀ (by decide) (by omega)
      omega

/-- A minimal string of a non-negative value has `width + 1` octets at most if the value leaves
their sign bit clear. -/
theorem IsMinimal.length_le_iff (minimal : IsMinimal octets) (same : twosValue octets = value)
    (width : Nat) : octets.length ≤ width + 1 ↔ value < 128 * 256 ^ width := by
  rw [minimal.length_le_iff_bounds, same]
  have power : (0 : Int) < 256 ^ width := pow_pos (by decide) _
  constructor
  · rintro ⟨-, above⟩
    exact_mod_cast above
  · intro small
    exact ⟨by omega, by exact_mod_cast small⟩

/-- A minimal string is no longer than any other string of the same value. -/
theorem IsMinimal.length_le {minimal : Octets} (shortest : IsMinimal minimal) (some : octets ≠ [])
    (same : twosValue minimal = twosValue octets) : minimal.length ≤ octets.length := by
  obtain ⟨octet, tail, rfl⟩ := List.exists_cons_of_ne_nil some
  rw [List.length_cons, shortest.length_le_iff_bounds, same]
  exact twosValue_bounds octet tail

/-- Two strings of one length and value are equal. -/
theorem twosValue_injective {first second : Octets} (lengths : first.length = second.length)
    (same : twosValue first = twosValue second) : first = second := by
  apply beNat_injective lengths
  match first, second with
  | [], [] => rfl
  | octet :: rest, head :: tail =>
    have sameLength : rest.length = tail.length := by simpa using lengths
    have leftBound : (beNat (octet :: rest) : Int) < 256 ^ (tail.length + 1) := by
      rw [← sameLength]
      exact_mod_cast beNat_lt (octet :: rest)
    have rightBound : (beNat (head :: tail) : Int) < 256 ^ (tail.length + 1) := by
      exact_mod_cast beNat_lt (head :: tail)
    simp only [twosValue, sameLength] at same
    split at same <;> split at same <;> omega

/-- Two minimal strings of one value are equal. -/
theorem IsMinimal.unique {first second : Octets} (minimal : IsMinimal first)
    (other : IsMinimal second) (same : twosValue first = twosValue second) : first = second :=
  twosValue_injective (Nat.le_antisymm (minimal.length_le other.1 same)
    (other.length_le minimal.1 same.symm)) same

/-! ## Non-negative values -/

/-- The shortest form of a non-negative value: a zero octet in front of a set sign bit. -/
def padPositive : Octets → Octets
  | [] => []
  | octet :: rest => if highBit octet then 0 :: octet :: rest else octet :: rest

theorem twosValue_of_clear (rest : Octets) (clear : highBit octet = false) :
    twosValue (octet :: rest) = beNat (octet :: rest) := by
  simp [twosValue, clear]

theorem twosValue_padPositive (octets : Octets) :
    twosValue (padPositive octets) = beNat octets := by
  cases octets with
  | nil => rfl
  | cons octet rest =>
    simp only [padPositive]
    split
    · rw [twosValue_of_clear _ (by decide), beNat_cons]
      simp
    · next clear => exact twosValue_of_clear rest (Bool.eq_false_iff.mpr clear)

theorem isMinimal_padPositive (rest : Octets) (nonzero : octet ≠ 0) :
    IsMinimal (padPositive (octet :: rest)) := by
  simp only [padPositive]
  split
  · rename_i set
    refine ⟨by simp, ?_⟩
    rintro first second tail shape
    cases shape
    simp [redundant, set]
  rename_i clear
  refine ⟨by simp, ?_⟩
  rintro first second tail shape
  cases shape
  have notOnes : octet ≠ 0xff := fun equal => clear (by rw [equal]; decide)
  simp [redundant, nonzero, notOnes]

theorem length_padPositive_le (octets : Octets) :
    (padPositive octets).length ≤ octets.length + 1 := by
  cases octets with
  | nil => simp [padPositive]
  | cons octet rest =>
    simp only [padPositive]
    split <;> simp

/-- Leading zero octets do not change the value read. -/
theorem beNat_zero_cons (rest : Octets) : beNat (0 :: rest) = beNat rest := by
  rw [beNat_cons]
  simp

/-- The leading zero octet of a longer encoding is sign padding and is skipped. -/
def skipPad : Octets → Octets
  | 0 :: second :: rest => second :: rest
  | data => data

theorem beNat_skipPad (octets : Octets) : beNat (skipPad octets) = beNat octets := by
  unfold skipPad
  split
  · rw [beNat_zero_cons]
  · rfl

/-- The digits behind the sign padding are the value, if they fit the word. -/
theorem beNat_skipPad_mod {lead : UInt8} {rest : Octets} (clear : highBit lead = false)
    (short : (skipPad (lead :: rest)).length ≤ width) :
    ((beNat (skipPad (lead :: rest)) % 256 ^ width : Nat) : Int) = twosValue (lead :: rest) := by
  have power : 256 ^ (skipPad (lead :: rest)).length ≤ 256 ^ width :=
    Nat.pow_le_pow_right (by decide) short
  rw [Nat.mod_eq_of_lt ((beNat_lt _).trans_le power), beNat_skipPad, twosValue_of_clear rest clear]

/-- A non-negative two's complement value has a clear sign bit. -/
theorem clear_of_twosValue_nonneg {lead : UInt8} {rest : Octets}
    (nonneg : 0 ≤ twosValue (lead :: rest)) : highBit lead = false := by
  have bound : (beNat (lead :: rest) : Int) < 256 ^ (rest.length + 1) := by
    exact_mod_cast beNat_lt (lead :: rest)
  by_contra set
  simp only [twosValue, Bool.not_eq_false] at nonneg set
  rw [if_pos set] at nonneg
  omega

private theorem lt_of_pow_le_lt {length : Nat} (above : 256 ^ length ≤ value)
    (fits : value < 256 ^ width) : length < width :=
  (Nat.pow_lt_pow_iff_right (by decide)).mp (Nat.lt_of_le_of_lt above fits)

/-- The shortest form of an unsigned number below `256 ^ width` has a clear sign bit and,
without its sign padding, at most `width` octets. -/
theorem IsMinimal.unsigned_form (minimal : IsMinimal octets) (same : twosValue octets = value)
    (fits : value < 256 ^ width) (positive : 0 < width) :
    ∃ lead rest, octets = lead :: rest ∧ highBit lead = false ∧ beNat octets = value ∧
      (skipPad octets).length ≤ width := by
  match octets, minimal with
  | [], minimal => exact (minimal.1 rfl).elim
  | lead :: rest, minimal =>
    have clear : highBit lead = false := clear_of_twosValue_nonneg (by rw [same]; omega)
    have digits : beNat (lead :: rest) = value := by
      rw [twosValue_of_clear rest clear] at same
      exact_mod_cast same
    refine ⟨lead, rest, rfl, clear, digits, ?_⟩
    by_cases zero : lead = 0
    · subst zero
      cases rest with
      | nil => exact positive
      | cons second rest =>
        -- the padding octet is needed, so the next octet carries the high bit
        have set : highBit second = true := by
          have needed := minimal.2 0 second rest rfl
          simpa [redundant] using needed
        have large := (highBit_iff second).mp set
        rw [beNat_zero_cons, beNat_cons] at digits
        have above : 256 ^ rest.length ≤ value := by nlinarith
        simpa [skipPad] using lt_of_pow_le_lt above fits
    · have nonzero : lead.toNat ≠ 0 := fun same => zero (UInt8.toNat_inj.mp same)
      have above : 256 ^ rest.length ≤ value := by
        rw [beNat_cons] at digits
        have : 1 * 256 ^ rest.length ≤ lead.toNat * 256 ^ rest.length :=
          Nat.mul_le_mul_right _ (by omega)
        omega
      have kept : skipPad (lead :: rest) = lead :: rest := by
        unfold skipPad
        split
        · next shape => exact (zero (List.cons.inj shape).1).elim
        · rfl
      rw [kept]
      simpa using lt_of_pow_le_lt above fits

theorem beNat_trimWhile_zero (octets : Octets) :
    beNat (trimWhile (fun first _ => first == 0) octets) = beNat octets := by
  fun_induction trimWhile (fun first _ => first == 0) octets with
  | case1 first second rest holds ih =>
    rw [ih, beq_iff_eq.mp holds, beNat_zero_cons]
  | case2 first second rest fails => rfl
  | case3 short => rfl

/-! ## Accumulator loops over machine words -/

/-- The loop `v = (v << 8) | int64(b)`. -/
def foldInt64 (start : Int64) (octets : Octets) : Int64 :=
  octets.foldl (fun value octet => (value <<< 8) ||| octet.toUInt64.toInt64) start

/-- The loop `v = (v << 8) | uint64(b)`. -/
def foldUInt64 (start : UInt64) (octets : Octets) : UInt64 :=
  octets.foldl (fun value octet => (value <<< 8) ||| octet.toUInt64) start

/-- The loop `v = (v << 8) | uint32(b)`. -/
def foldUInt32 (start : UInt32) (octets : Octets) : UInt32 :=
  octets.foldl (fun value octet => (value <<< 8) ||| octet.toUInt32) start

private theorem shift_or_octet (value : BitVec width) {octet : Nat} (small : octet < 256) :
    (value <<< 8) ||| BitVec.ofNat width octet = value * 256 + BitVec.ofNat width octet := by
  have disjoint : (value <<< 8) &&& BitVec.ofNat width octet = BitVec.ofNat width 0 := by
    apply BitVec.eq_of_getLsbD_eq
    intro index inside
    rw [BitVec.getLsbD_and, BitVec.getLsbD_shiftLeft, BitVec.getLsbD_zero, BitVec.getLsbD_ofNat]
    by_cases low : index < 8
    · simp [low]
    · have high : octet.testBit index = false := by
        apply Nat.testBit_lt_two_pow
        calc octet < 2 ^ 8 := small
          _ ≤ 2 ^ index := Nat.pow_le_pow_right (by decide) (by omega)
      simp [high]
  rw [← BitVec.add_eq_or_of_and_eq_zero _ _ disjoint, BitVec.shiftLeft_eq_mul_twoPow]
  congr 2
  apply BitVec.eq_of_toNat_eq
  simp [BitVec.toNat_twoPow]

private theorem toNat_shift_or (value : BitVec width) (octet : UInt8) :
    ((value <<< 8) ||| BitVec.ofNat width octet.toNat).toNat =
      (value.toNat * 256 + octet.toNat) % 2 ^ width := by
  rw [shift_or_octet value octet.toNat_lt]
  simp [BitVec.toNat_add, BitVec.toNat_mul]

/-- One more octet in a modular accumulator. -/
private theorem accumulate_cons (start : Nat) (octet : UInt8) (rest : Octets) (modulus : Nat) :
    ((start * 256 + octet.toNat) % modulus * 256 ^ rest.length + beNat rest) % modulus =
      (start * 256 ^ (octet :: rest).length + beNat (octet :: rest)) % modulus := by
  rw [Nat.add_mod, Nat.mod_mul_mod, ← Nat.add_mod, List.length_cons, beNat_cons, pow_succ]
  ring_nf

theorem foldUInt64_toNat (start : UInt64) (octets : Octets) :
    (foldUInt64 start octets).toNat =
      (start.toNat * 256 ^ octets.length + beNat octets) % 2 ^ 64 := by
  induction octets generalizing start with
  | nil => simp [foldUInt64, Nat.mod_eq_of_lt start.toNat_lt]
  | cons octet rest ih =>
    have step : ((start <<< 8) ||| octet.toUInt64).toNat =
        (start.toNat * 256 + octet.toNat) % 2 ^ 64 := by
      have shifted := toNat_shift_or start.toBitVec octet
      simpa using shifted
    rw [← accumulate_cons, ← step]
    exact ih ((start <<< 8) ||| octet.toUInt64)

theorem foldUInt32_toNat (start : UInt32) (octets : Octets) :
    (foldUInt32 start octets).toNat =
      (start.toNat * 256 ^ octets.length + beNat octets) % 2 ^ 32 := by
  induction octets generalizing start with
  | nil => simp [foldUInt32, Nat.mod_eq_of_lt start.toNat_lt]
  | cons octet rest ih =>
    have step : ((start <<< 8) ||| octet.toUInt32).toNat =
        (start.toNat * 256 + octet.toNat) % 2 ^ 32 := by
      have shifted := toNat_shift_or start.toBitVec octet
      simpa using shifted
    rw [← accumulate_cons, ← step]
    exact ih ((start <<< 8) ||| octet.toUInt32)

theorem foldInt64_eq (start : Int64) (octets : Octets) :
    foldInt64 start octets = Int64.ofInt (start.toInt * 256 ^ octets.length + beNat octets) := by
  induction octets generalizing start with
  | nil => simp [foldInt64]
  | cons octet rest ih =>
    have step : (start <<< 8) ||| octet.toUInt64.toInt64 =
        start * 256 + Int64.ofInt octet.toNat := by
      apply Int64.toBitVec_inj.mp
      have wide : (octet.toUInt64.toInt64).toBitVec = BitVec.ofNat 64 octet.toNat :=
        BitVec.eq_of_toNat_eq (by simp)
      have shifted : (start <<< 8).toBitVec = start.toBitVec <<< 8 := by
        rw [Int64.toBitVec_shiftLeft]
        rfl
      rw [Int64.toBitVec_or, shifted, wide, shift_or_octet _ octet.toNat_lt,
        Int64.toBitVec_add, Int64.toBitVec_mul]
      rfl
    have tail := ih ((start <<< 8) ||| octet.toUInt64.toInt64)
    simp only [foldInt64, List.foldl_cons, List.length_cons, beNat_cons] at tail ⊢
    rw [tail, step]
    push_cast
    have base : Int64.ofInt 256 = 256 := rfl
    simp only [Int64.ofInt_add, Int64.ofInt_mul, Int64.ofInt_toInt, pow_succ, base]
    rw [Int64.add_mul, Int64.mul_assoc, Int64.mul_comm 256, Int64.add_assoc]

/-- Sign-extended reading: start from all ones when the first octet's sign bit is set. -/
def foldSigned (octets : Octets) : Int64 :=
  foldInt64 (if (octets.head?.map highBit).getD false then -1 else 0) octets

/-- Up to eight octets, the sign-extended reading is the two's complement value. -/
theorem foldSigned_toInt (short : octets.length ≤ 8) :
    (foldSigned octets).toInt = twosValue octets := by
  cases octets with
  | nil => rfl
  | cons octet rest =>
    have value : foldSigned (octet :: rest) = Int64.ofInt (twosValue (octet :: rest)) := by
      simp only [foldSigned, List.head?_cons, Option.map_some, Option.getD_some]
      rw [foldInt64_eq]
      congr 1
      by_cases set : highBit octet = true
      · simp only [set, ↓reduceIte, twosValue, List.length_cons]
        have minusOne : (-1 : Int64).toInt = -1 := rfl
        rw [minusOne]
        ring
      · simp [set, twosValue]
    have bounds := twosValue_bounds octet rest
    have power : (256 : Int) ^ rest.length ≤ 256 ^ 7 :=
      pow_le_pow_right₀ (by norm_num) (by simp only [List.length_cons] at short; omega)
    rw [value, Int64.toInt_ofInt_of_le] <;> omega

/-- The eight octets `byte(v >> (8 * (7 - i)))` of a word. -/
def wordOctets (value : Int64) : Octets :=
  (List.range 8).map fun index : Nat => UInt8.ofInt (value.toInt >>> (8 * (7 - index) : Nat))

theorem wordOctets_eq (value : Int64) :
    wordOctets value = beOctets 8 (value.toInt % 2 ^ 64).toNat := by
  have octet (whole : Int) (low : Nat) (same : whole % 256 = low % 256) :
      UInt8.ofInt whole = UInt8.ofNat low := by
    apply UInt8.toNat_inj.mp
    simp only [UInt8.ofInt, UInt8.toNat_ofNat']
    omega
  simp only [wordOctets, List.range, List.range.loop, List.map_cons, List.map_nil, beOctets,
    Int.shiftRight_eq_div_pow, List.cons.injEq, and_true]
  refine ⟨?_, ?_, ?_, ?_, ?_, ?_, ?_, ?_⟩ <;> apply octet <;> norm_num <;> omega

theorem twosValue_wordOctets (value : Int64) : twosValue (wordOctets value) = value.toInt := by
  have low := value.le_toInt
  have high := value.toInt_lt
  have whole : beNat (wordOctets value) = (value.toInt % 2 ^ 64).toNat := by
    rw [wordOctets_eq, beNat_beOctets_of_lt (by norm_num; omega)]
  have shape : ∃ octet rest, wordOctets value = octet :: rest ∧ rest.length = 7 ∧
      octet = UInt8.ofNat ((value.toInt % 2 ^ 64).toNat / 256 ^ 7) := by
    rw [wordOctets_eq]
    exact ⟨_, _, rfl, length_beOctets 7 _, rfl⟩
  obtain ⟨octet, rest, word, length, lead⟩ := shape
  have sign : highBit octet = true ↔ value.toInt < 0 := by
    rw [highBit_iff, lead, UInt8.toNat_ofNat']
    omega
  rw [word] at whole ⊢
  simp only [twosValue, whole, length]
  split
  · rename_i set
    have negative := sign.mp set
    omega
  rename_i clear
  have nonnegative : ¬ value.toInt < 0 := fun negative => clear (sign.mpr negative)
  omega

end GoMms.Octets
