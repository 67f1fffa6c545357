import GoMms.Berutil.Integer
import GoMms.Berutil.Tlv
import GoMms.Foundation.Runtime

/-!
# Leaf contents of MMS Data

The content codecs of `internal/pdu/data.go` for integers, floating point, bit strings and
times, without their tag and length. For each codec there is what decoding an encoding gives
and, in the other direction, what an accepted content says about the decoded value and about
the length of its encoding.
-/

namespace GoMms.Pdu

open Octets Berutil

/-! ## Codecs -/

def encodeSignedInt (value : Int64) : Octets :=
  if value = 0 then [0x00]
  else if value > 0 then
    trimWhile (fun first second => first == 0 && !highBit second) (wordOctets value)
  else trimWhile (fun first second => first == 0xff && highBit second) (wordOctets value)

def encodeUnsignedInt (value : UInt64) : Octets :=
  if value = 0 then [0x00]
  else padPositive (trimWhile (fun first _ => first == 0) (beOctets 8 value.toNat))

def decodeSignedInt (data : Octets) : Except String Int64 :=
  if data.length = 0 then .error "empty integer"
  else if data.length > 8 then
    .error ("integer too large (" ++ toString data.length ++ " bytes)")
  else .ok (foldSigned data)

def decodeUnsignedInt (data : Octets) : Except String UInt64 :=
  match data with
  | [] => .error "empty unsigned integer"
  | lead :: _ =>
    if highBit lead then .error "unsigned integer has negative encoding"
    else
      let digits := skipPad data
      if digits.length > 8 then
        .error ("unsigned integer too large (" ++ toString digits.length ++ " bytes)")
      else .ok (foldUInt64 0 digits)

/-- A float is its exponent width and its IEEE 754 octets. -/
def encodeFloat (runtime : Runtime) (bits : UInt64) (wide : Bool) : Octets :=
  if wide then 11 :: beOctets 8 bits.toNat
  else 8 :: beOctets 4 (runtime.narrow bits).toNat

def decodeFloat (runtime : Runtime) (data : Octets) : Except String (UInt64 × Bool) :=
  match data with
  | [] => .error "empty float encoding"
  | width :: octets =>
    if octets.length = 4 ∧ width = 8 then
      .ok (runtime.widen (UInt32.ofNat (beNat octets)), false)
    else if octets.length = 8 ∧ width = 11 then .ok (UInt64.ofNat (beNat octets), true)
    else .error ("unsupported float encoding (len=" ++ toString data.length ++ ", expWidth=" ++
      toString width ++ ")")

/-- A bit string is its number of unused bits and its octets. -/
def encodeBitString (data : Octets) (bitLen : Int64) : Octets :=
  if data.length = 0 then [0]
  else
    let remainder := bitLen.toInt % 8
    let unused : UInt8 :=
      if bitLen > 0 then if remainder ≠ 0 then UInt8.ofInt (8 - remainder) else 0 else 0
    unused :: data

def decodeBitString (data : Octets) : Except String (Octets × Int64) :=
  match data with
  | [] => .error "empty bit string content (missing unused-bits octet)"
  | unused :: rawBytes =>
    if unused > 7 then .error ("invalid unused bits count " ++ toString unused)
    else if rawBytes = [] then
      if unused ≠ 0 then
        .error ("empty bit string with non-zero unused bits " ++ toString unused)
      else .ok ([], 0)
    else .ok (rawBytes, Int64.ofInt (rawBytes.length * 8 - unused.toNat))

/-- `encodeUTCTime`: 32-bit seconds, a 24-bit binary fraction rounded to the nearest, and
the quality octet. The "not set" instant is written as the epoch. -/
def encodeUTCTime (runtime : Runtime) (time : Instant) (quality : UInt8) :
    Except String Octets :=
  let time := if time.isZero then Instant.ofUnix 0 0 else time
  if time.unix < 0 ∨ time.unix > 4294967295 then
    .error ("pdu: UTC time " ++ runtime.rfc3339 time ++ " outside 1970-01-01..2106-02-07")
  else
    let frac := min ((time.nanosecond * 2 ^ 24 + 500000000) / 1000000000) (2 ^ 24 - 1)
    .ok (beOctets 4 time.unix.toNat ++ beOctets 3 frac ++ [quality])

def decodeUTCTime (data : Octets) : Except String (Instant × UInt8) :=
  match data with
  | [s0, s1, s2, s3, f0, f1, f2, quality] =>
    let secs := beNat [s0, s1, s2, s3]
    let frac := beNat [f0, f1, f2]
    let nanos : Nat := (frac * 1000000000 + 2 ^ 23) / 2 ^ 24
    .ok (Instant.ofUnix secs nanos, quality)
  | _ => .error ("UTC time must be 8 bytes, got " ++ toString data.length)

/-- `epoch1984.UnixMilli()`. -/
def binaryTimeMinMs : Int := 441763200000

def msPerDay : Int := 24 * 60 * 60 * 1000

/-- The last millisecond of day 65535 after 1984-01-01. -/
def binaryTimeMaxMs : Int := binaryTimeMinMs + (0xffff + 1) * msPerDay - 1

/-- `encodeBinaryTime`. The source divides hours by 24 in float64 and truncates; the quotient
is taken exactly here. -/
def encodeBinaryTime (msEpoch : Int64) : Octets :=
  let days := (msEpoch.toInt - binaryTimeMinMs).tdiv msPerDay % 0x10000
  let msOfDay := msEpoch.toInt % msPerDay
  beOctets 4 msOfDay.toNat ++ beOctets 2 days.toNat

def encodeBinaryTimeChecked (runtime : Runtime) (msEpoch : Int64) : Except String Octets :=
  if msEpoch.toInt ≥ 0 ∧ msEpoch.toInt < msPerDay then .ok (beOctets 4 msEpoch.toInt.toNat)
  else if msEpoch.toInt < binaryTimeMinMs ∨ msEpoch.toInt > binaryTimeMaxMs then
    .error ("pdu: binary time " ++ runtime.rfc3339 (Instant.ofUnixMilli msEpoch.toInt) ++
      " outside 1984-01-01..2163-06-05 (and not a 4-octet time of day)")
  else .ok (encodeBinaryTime msEpoch)

def decodeBinaryTime (data : Octets) : Except String Int64 :=
  let ms := beNat (data.take 4)
  if (data.length = 4 ∨ data.length = 6) ∧ ms ≥ msPerDay then
    .error ("binary time: " ++ toString ms ++ " ms since midnight exceeds one day")
  else if data.length = 4 then .ok (Int64.ofInt ms)
  else if data.length = 6 then
    .ok (Int64.ofInt (binaryTimeMinMs + beNat (data.drop 4) * msPerDay + ms))
  else .error ("binary time must be 4 or 6 bytes, got " ++ toString data.length)

/-! ## Integers -/

/-- A test that agrees with `redundant` on values of one sign trims them alike. -/
private theorem trimWhile_congr {test : UInt8 → UInt8 → Bool} (sign : Int → Prop)
    (agree : ∀ first second rest, sign (twosValue (first :: second :: rest)) →
      test first second = redundant first second)
    (octets : Octets) (start : sign (twosValue octets)) :
    trimWhile test octets = trimWhile redundant octets := by
  fun_induction trimWhile redundant octets with
  | case1 first second rest drop ih =>
    rw [trimWhile, if_pos ((agree _ _ _ start).trans drop)]
    exact ih (by rwa [twosValue_of_redundant rest drop] at start)
  | case2 first second rest keep => rw [trimWhile, agree _ _ _ start, if_neg keep]
  | case3 octets short =>
    unfold trimWhile
    split
    · next first second rest => exact (short first second rest rfl).elim
    · rfl

private theorem trimWhile_positive (octets : Octets) (positive : 0 < twosValue octets) :
    trimWhile (fun first second => first == 0 && !highBit second) octets =
      trimWhile redundant octets := by
  refine trimWhile_congr (0 < ·) (fun first second rest positive => ?_) octets positive
  have ones : first ≠ 0xff := by
    rintro rfl
    exact absurd (clear_of_twosValue_nonneg (Int.le_of_lt positive)) (by decide)
  simp [redundant, ones]

private theorem trimWhile_negative (octets : Octets) (negative : twosValue octets < 0) :
    trimWhile (fun first second => first == 0xff && highBit second) octets =
      trimWhile redundant octets := by
  refine trimWhile_congr (· < 0) (fun first second rest negative => ?_) octets negative
  have nonzero : first ≠ 0 := by
    rintro rfl
    rw [twosValue_of_clear _ (by decide)] at negative
    omega
  simp [redundant, nonzero]

/-- The sign-dependent trimming of this package and the one of `berutil` agree. -/
theorem encodeSignedInt_eq (value : Int64) : encodeSignedInt value = encodeInt value := by
  have whole := twosValue_wordOctets value
  unfold encodeSignedInt encodeInt
  split
  · rename_i zero
    subst zero
    decide
  rename_i nonzero
  have zero : (0 : Int64).toInt = 0 := rfl
  split
  · rename_i positive
    rw [gt_iff_lt, Int64.lt_iff_toInt_lt, zero] at positive
    exact trimWhile_positive _ (by omega)
  rename_i negative
  have different : value.toInt ≠ 0 := fun same => nonzero (Int64.toInt_inj.mp same)
  rw [gt_iff_lt, Int64.lt_iff_toInt_lt, zero] at negative
  exact trimWhile_negative _ (by omega)

theorem decodeSignedInt_encodeSignedInt (value : Int64) :
    decodeSignedInt (encodeSignedInt value) = .ok value := by
  have short := length_encodeInt_le value
  rw [encodeSignedInt_eq, decodeSignedInt, if_neg, if_neg (by omega)]
  · congr 1
    exact Int64.toInt_inj.mp ((foldSigned_toInt short).trans (twosValue_encodeInt value))
  · simpa using (isMinimal_encodeInt value).1

variable {data octets : Octets} {bitLen : Int64} {time : Instant}

variable {value msEpoch : Int64} {content frac seconds : Octets} {read : UInt8}

theorem toInt_of_decodeSignedInt (ok : decodeSignedInt data = .ok value) :
    data ≠ [] ∧ value.toInt = twosValue data := by
  unfold decodeSignedInt at ok
  split_ifs at ok with empty long
  cases ok
  exact ⟨by simpa using empty, foldSigned_toInt (Nat.not_lt.mp long)⟩

/-- A longer accepted form is not shorter than the encoding of its value. -/
theorem length_encodeSignedInt_le (ok : decodeSignedInt data = .ok value) :
    (encodeSignedInt value).length ≤ data.length := by
  obtain ⟨some, whole⟩ := toInt_of_decodeSignedInt ok
  rw [encodeSignedInt_eq]
  exact (isMinimal_encodeInt value).length_le some (by rw [twosValue_encodeInt, whole])

theorem encodeUnsignedInt_spec (value : UInt64) :
    IsMinimal (encodeUnsignedInt value) ∧ twosValue (encodeUnsignedInt value) = value.toNat := by
  unfold encodeUnsignedInt
  split
  · rename_i zero
    subst zero
    exact ⟨⟨by simp, by simp⟩, by decide⟩
  rename_i nonzero
  have kept := beNat_trimWhile_zero (beOctets 8 value.toNat)
  rw [beNat_beOctets_of_lt value.toNat_lt] at kept
  refine ⟨?_, by rw [twosValue_padPositive, kept]⟩
  have different : value.toNat ≠ 0 := fun same => nonzero (UInt64.toNat_inj.mp same)
  match shape : trimWhile (fun first _ => first == 0) (beOctets 8 value.toNat) with
  | [] =>
    rw [shape] at kept
    exact (different kept.symm).elim
  | [octet] =>
    refine isMinimal_padPositive [] ?_
    rintro rfl
    rw [shape] at kept
    exact different kept.symm
  | first :: second :: rest =>
    refine isMinimal_padPositive (second :: rest) ?_
    simpa using trimWhile_stops _ _ shape

/-- A non-negative machine integer has one shortest form. -/
theorem encodeUnsignedInt_toUInt64 (nonneg : 0 ≤ value.toInt) :
    encodeUnsignedInt value.toUInt64 = encodeInt value := by
  obtain ⟨minimal, same⟩ := encodeUnsignedInt_spec value.toUInt64
  have word : (value.toUInt64.toNat : Int) = value.toInt := by
    have signed := BitVec.toInt_eq_toNat_cond value.toBitVec
    have bound := value.toBitVec.isLt
    change (value.toBitVec.toNat : Int) = value.toBitVec.toInt
    change 0 ≤ value.toBitVec.toInt at nonneg
    split at signed <;> omega
  apply minimal.unique (isMinimal_encodeInt value)
  rw [same, twosValue_encodeInt, word]

theorem decodeUnsignedInt_encodeUnsignedInt (value : UInt64) :
    decodeUnsignedInt (encodeUnsignedInt value) = .ok value := by
  obtain ⟨minimal, same⟩ := encodeUnsignedInt_spec value
  have fits : value.toNat < 256 ^ 8 := value.toNat_lt
  obtain ⟨lead, rest, shape, clear, digits, short⟩ := minimal.unsigned_form same fits (by decide)
  rw [shape] at digits short ⊢
  simp only [decodeUnsignedInt, clear, Bool.false_eq_true, ↓reduceIte]
  rw [if_neg (by omega)]
  congr 1
  apply UInt64.toNat_inj.mp
  rw [foldUInt64_toNat, beNat_skipPad, digits]
  simp [Nat.mod_eq_of_lt value.toNat_lt]

theorem toNat_of_decodeUnsignedInt {value : UInt64} (ok : decodeUnsignedInt data = .ok value) :
    data ≠ [] ∧ (value.toNat : Int) = twosValue data := by
  cases data with
  | nil => cases ok
  | cons lead rest =>
    refine ⟨List.cons_ne_nil lead rest, ?_⟩
    simp only [decodeUnsignedInt] at ok
    split_ifs at ok with negative long
    cases ok
    rw [foldUInt64_toNat, UInt64.toNat_zero, Nat.zero_mul, Nat.zero_add]
    exact beNat_skipPad_mod (Bool.eq_false_iff.mpr negative) (Nat.not_lt.mp long)

theorem length_encodeUnsignedInt_le {value : UInt64} (ok : decodeUnsignedInt data = .ok value) :
    (encodeUnsignedInt value).length ≤ data.length := by
  obtain ⟨minimal, same⟩ := encodeUnsignedInt_spec value
  obtain ⟨some, whole⟩ := toNat_of_decodeUnsignedInt ok
  exact minimal.length_le some (same.trans whole)

/-- The encoders of both packages write the one shortest two's complement form of a number. Their
decoders read it back, and agree on every octet string that both accept. -/
theorem integerCodecs_agree (v : Int64) (u : UInt32) (w : UInt64) (octets : Octets) :
    (encodeSignedInt v = encodeInt v ∧ twosValue (encodeInt v) = v.toInt ∧
      (octets ≠ [] → twosValue octets = v.toInt →
        octets = encodeInt v ∨ (encodeInt v).length < octets.length) ∧
      decodeSignedInt (encodeSignedInt v) = .ok v) ∧
    (encodeUint32 u = encodeUnsignedInt u.toUInt64 ∧
      encodeUnsignedInt u.toUInt64 = encodeInt u.toUInt64.toInt64 ∧
      decodeUnsigned (encodeUint32 u) = .ok u) ∧
    decodeUnsignedInt (encodeUnsignedInt w) = .ok w ∧
    (∀ first second, decodeInteger octets = .ok first → decodeSignedInt octets = .ok second →
      first = second) ∧
    ∀ first second, decodeUnsigned octets = .ok first → decodeUnsignedInt octets = .ok second →
      first.toNat = second.toNat := by
  refine ⟨⟨encodeSignedInt_eq v, twosValue_encodeInt v, ?_, decodeSignedInt_encodeSignedInt v⟩,
    ⟨?_, ?_, decodeUnsigned_encodeUint32 u⟩, decodeUnsignedInt_encodeUnsignedInt w, ?_, ?_⟩
  · intro some value
    have whole := (twosValue_encodeInt v).trans value.symm
    rcases Nat.eq_or_lt_of_le ((isMinimal_encodeInt v).length_le some whole) with same | longer
    · exact .inl (twosValue_injective same.symm whole.symm)
    · exact .inr longer
  · obtain ⟨minimal, value, -⟩ := encodeUint32_spec u
    obtain ⟨other, wide⟩ := encodeUnsignedInt_spec u.toUInt64
    exact minimal.unique other (by rw [value, wide, UInt32.toNat_toUInt64])
  · have small := u.toNat_lt
    have positive : 0 ≤ u.toUInt64.toInt64.toInt := by
      rw [Int64.toInt, BitVec.toInt_eq_toNat_cond]
      simp
      omega
    have back := encodeUnsignedInt_toUInt64 positive
    rwa [UInt64.toUInt64_toInt64] at back
  · intro first second integer signed
    obtain ⟨lead, rest, -, -, value⟩ := decodeInteger_ok integer
    exact Int64.toInt_inj.mp (value.trans (toInt_of_decodeSignedInt signed).2.symm)
  · intro first second narrow wide
    exact Int.ofNat.inj
      ((toNat_of_decodeUnsigned narrow).trans (toNat_of_decodeUnsignedInt wide).2.symm)

/-! ## Bit strings -/

/-- The octets hold exactly `bitLen` bits, with fewer than eight unused ones. -/
def WholeBits (data : Octets) (bitLen : Int64) : Prop :=
  (data = [] ∧ bitLen = 0) ∨
    (data ≠ [] ∧ 8 * ((data.length : Int) - 1) < bitLen.toInt ∧ bitLen.toInt ≤ 8 * data.length)

/-- The number of bits the peer reads: what the octets hold, less the unused bits that the
remainder of a positive `bitLen` announces. -/
def sentBits (data : Octets) (bitLen : Int64) : Int64 :=
  if data = [] then 0
  else Int64.ofInt (data.length * 8 - if bitLen > 0 then -bitLen.toInt % 8 else 0)

/-- Whatever length it claims, a bit string comes back with its octets. -/
theorem decodeBitString_encodeBitString_eq (data : Octets) (bitLen : Int64) :
    decodeBitString (encodeBitString data bitLen) = .ok (data, sentBits data bitLen) := by
  by_cases empty : data = []
  · subst empty
    rfl
  · have length : 0 < data.length := List.length_pos_of_ne_nil empty
    -- `8 - remainder` below eight, and zero when the last octet is full
    have unused : ∃ count : UInt8, encodeBitString data bitLen = count :: data ∧
        count.toNat < 8 ∧ (count.toNat : Int) = if bitLen > 0 then -bitLen.toInt % 8 else 0 := by
      unfold encodeBitString
      rw [if_neg (by omega)]
      dsimp only
      refine ⟨_, rfl, ?_⟩
      have none : (0 : UInt8).toNat = 0 := rfl
      split
      · split
        · rename_i partly
          have small : (UInt8.ofInt (8 - bitLen.toInt % 8)).toNat =
              (8 - bitLen.toInt % 8).toNat := by
            simp only [UInt8.ofInt, UInt8.toNat_ofNat']
            omega
          rw [small]
          omega
        rename_i full
        rw [none]
        omega
      · exact ⟨by decide, rfl⟩
    obtain ⟨count, shape, small, exact⟩ := unused
    have seven : (7 : UInt8).toNat = 7 := rfl
    rw [shape]
    simp only [decodeBitString]
    rw [if_neg (by rw [gt_iff_lt, UInt8.lt_iff_toNat_lt, seven]; omega), if_neg empty, sentBits,
      if_neg empty, ← exact]

theorem sentBits_of_whole (whole : WholeBits data bitLen) : sentBits data bitLen = bitLen := by
  rcases whole with ⟨rfl, rfl⟩ | ⟨some, above, below⟩
  · rfl
  · have length : 0 < data.length := List.length_pos_of_ne_nil some
    have zero : (0 : Int64).toInt = 0 := rfl
    have positive : bitLen > 0 := by
      rw [gt_iff_lt, Int64.lt_iff_toInt_lt, zero]
      omega
    have exact : (data.length : Int) * 8 - -bitLen.toInt % 8 = bitLen.toInt := by omega
    rw [sentBits, if_neg some, if_pos positive, exact, Int64.ofInt_toInt]

/-- The number of bits comes back exactly when it is that of the octets. -/
theorem sentBits_eq_iff (machine : data.length < 2 ^ 60) (bitLen : Int64) :
    sentBits data bitLen = bitLen ↔ WholeBits data bitLen := by
  refine ⟨fun same => ?_, sentBits_of_whole⟩
  have zero : (0 : Int64).toInt = 0 := rfl
  by_cases empty : data = []
  · rw [sentBits, if_pos empty] at same
    exact .inl ⟨empty, same.symm⟩
  · have length : 0 < data.length := List.length_pos_of_ne_nil empty
    rw [sentBits, if_neg empty, ← Int64.toInt_inj] at same
    simp only [gt_iff_lt, Int64.lt_iff_toInt_lt, zero] at same
    rw [Int64.toInt_ofInt_of_le (by split <;> omega) (by split <;> omega)] at same
    refine .inr ⟨empty, ?_⟩
    split at same <;> omega

theorem decodeBitString_encodeBitString (whole : WholeBits data bitLen) :
    decodeBitString (encodeBitString data bitLen) = .ok (data, bitLen) := by
  rw [decodeBitString_encodeBitString_eq, sentBits_of_whole whole]

theorem length_encodeBitString (data : Octets) (bitLen : Int64) :
    (encodeBitString data bitLen).length = data.length + 1 := by
  unfold encodeBitString
  split
  · next empty => simp [empty]
  · rfl

theorem decodeBitString_ok (fits : content.length < maxContent)
    (ok : decodeBitString content = .ok (data, bitLen)) :
    WholeBits data bitLen ∧ (encodeBitString data bitLen).length = content.length := by
  cases content with
  | nil => simp [decodeBitString] at ok
  | cons unused rawBytes =>
    simp only [decodeBitString] at ok
    split at ok
    · simp at ok
    rename_i small
    have seven : (7 : UInt8).toNat = 7 := rfl
    rw [gt_iff_lt, UInt8.lt_iff_toNat_lt, seven] at small
    split at ok
    · rename_i empty
      split at ok
      · simp at ok
      · simp only [Except.ok.injEq, Prod.mk.injEq] at ok
        obtain ⟨rfl, rfl⟩ := ok
        exact ⟨.inl ⟨rfl, rfl⟩, by simp [encodeBitString, empty]⟩
    rename_i some
    simp only [Except.ok.injEq, Prod.mk.injEq] at ok
    obtain ⟨rfl, rfl⟩ := ok
    have positive : 0 < rawBytes.length := List.length_pos_of_ne_nil some
    simp only [maxContent, List.length_cons] at fits
    refine ⟨.inr ⟨some, ?_⟩, ?_⟩
    · rw [Int64.toInt_ofInt_of_le (by omega) (by omega)]
      omega
    · unfold encodeBitString
      rw [if_neg (by omega)]
      rfl

/-! ## Times -/

/-- A fraction of a second read in nanoseconds stays within the second, and the encoder's own
rounding finds the fraction again. -/
private theorem fraction_of_nanoseconds {frac : Nat} (bound : frac < 2 ^ 24) :
    (frac * 1000000000 + 2 ^ 23) / 2 ^ 24 < 1000000000 ∧
      min (((frac * 1000000000 + 2 ^ 23) / 2 ^ 24 * 2 ^ 24 + 500000000) / 1000000000) (2 ^ 24 - 1) =
        frac := by
  omega

/-- One step of the fraction is just under 60 nanoseconds: half of it is the error of the
rounding, all of it where the last half step of a second saturates. -/
private theorem nanoseconds_of_fraction {nanosecond : Nat} (bound : nanosecond < 1000000000) :
    let frac := min ((nanosecond * 2 ^ 24 + 500000000) / 1000000000) (2 ^ 24 - 1)
    frac < 2 ^ 24 ∧ (frac * 1000000000 + 2 ^ 23) / 2 ^ 24 ≤ nanosecond + 60 ∧
      nanosecond ≤ (frac * 1000000000 + 2 ^ 23) / 2 ^ 24 + 60 := by
  intro frac
  omega

private theorem ofUnix_within (seconds : Int) {nanoseconds : Nat}
    (bound : nanoseconds < 1000000000) :
    Instant.ofUnix seconds nanoseconds = ⟨seconds, nanoseconds, bound⟩ := by
  refine Instant.ext ?_ ?_
  · simp only [Instant.ofUnix]
    omega
  · simp only [Instant.ofUnix]
    omega

/-- What an instant within the range of the format is written as. -/
theorem encodeUTCTime_eq (runtime : Runtime) (low : 0 ≤ time.unix) (high : time.unix ≤ 4294967295)
    (quality : UInt8) :
    encodeUTCTime runtime time quality = .ok (beOctets 4 time.unix.toNat ++
      beOctets 3 (min ((time.nanosecond * 2 ^ 24 + 500000000) / 1000000000) (2 ^ 24 - 1)) ++
      [quality]) := by
  have set : time.isZero = false := by
    simp only [Instant.isZero, Bool.and_eq_false_iff, beq_eq_false_iff_ne]
    omega
  unfold encodeUTCTime
  simp only [set, Bool.false_eq_true, ↓reduceIte]
  exact if_neg (by omega)

/-- What eight octets are read as: the rounding never carries into the next second. -/
theorem decodeUTCTime_eq (four : seconds.length = 4) (three : frac.length = 3) (quality : UInt8) :
    ∃ within, decodeUTCTime (seconds ++ frac ++ [quality]) =
      .ok (⟨beNat seconds, (beNat frac * 1000000000 + 2 ^ 23) / 2 ^ 24, within⟩, quality) := by
  obtain ⟨s0, s1, s2, s3, rfl⟩ : ∃ s0 s1 s2 s3, seconds = [s0, s1, s2, s3] := by
    simpa [List.length_eq_four] using four
  obtain ⟨f0, f1, f2, rfl⟩ := List.length_eq_three.mp three
  have bound : beNat [f0, f1, f2] < 2 ^ 24 := by simpa using beNat_lt [f0, f1, f2]
  have within := (fraction_of_nanoseconds bound).1
  refine ⟨within, ?_⟩
  simp only [List.cons_append, List.nil_append, decodeUTCTime, ofUnix_within _ within]

/-- Eight octets are their seconds, their fraction and their quality. -/
private theorem utcTime_fields (eight : octets.length = 8) :
    ∃ seconds frac quality, octets = seconds ++ frac ++ [quality] ∧ seconds.length = 4 ∧
      frac.length = 3 := by
  refine ⟨octets.take 4, (octets.drop 4).take 3, octets.getD 7 0, ?_, by simp; omega,
    by simp; omega⟩
  match octets, eight with
  | [_, _, _, _, _, _, _, _], _ => rfl

/-- Reading loses nothing: the instant is written as the octets it was read from. -/
private theorem encodeUTCTime_fields (runtime : Runtime) (four : seconds.length = 4)
    (three : frac.length = 3) (ok : decodeUTCTime (seconds ++ frac ++ [read]) = .ok (time, read))
    (quality : UInt8) :
    time.unix = beNat seconds ∧
      encodeUTCTime runtime time quality = .ok (seconds ++ frac ++ [quality]) := by
  obtain ⟨within, decoded⟩ := decodeUTCTime_eq four three read
  rw [decoded] at ok
  simp only [Except.ok.injEq, Prod.mk.injEq, and_true] at ok
  subst ok
  have secondsBound := beNat_lt seconds
  have fracBound := beNat_lt frac
  rw [four] at secondsBound
  rw [three] at fracBound
  refine ⟨rfl, ?_⟩
  rw [encodeUTCTime_eq runtime (by simp) (by simp only; omega)]
  simp only [(fraction_of_nanoseconds fracBound).2, Int.toNat_natCast]
  have secondsBack := beOctets_beNat seconds
  have fracBack := beOctets_beNat frac
  rw [four] at secondsBack
  rw [three] at fracBack
  rw [secondsBack, fracBack]

theorem length_of_decodeUTCTime {quality : UInt8}
    (ok : decodeUTCTime octets = .ok (time, quality)) : octets.length = 8 := by
  unfold decodeUTCTime at ok
  split at ok
  · rfl
  · simp at ok

/-- The seven octets of the instant and the quality octet are read back. -/
theorem encodeUTCTime_decodeUTCTime (runtime : Runtime)
    (ok : decodeUTCTime octets = .ok (time, read)) (quality : UInt8) :
    ∃ content, encodeUTCTime runtime time quality = .ok content ∧ content.length = 8 ∧
      decodeUTCTime content = .ok (time, quality) := by
  obtain ⟨seconds, frac, last, rfl, four, three⟩ := utcTime_fields (length_of_decodeUTCTime ok)
  obtain ⟨within, decoded⟩ := decodeUTCTime_eq four three last
  obtain ⟨within', again⟩ := decodeUTCTime_eq four three quality
  rw [decoded] at ok
  simp only [Except.ok.injEq, Prod.mk.injEq] at ok
  obtain ⟨rfl, rfl⟩ := ok
  exact ⟨_, (encodeUTCTime_fields runtime four three decoded quality).2, by simp [four, three],
    again⟩

/-- **UTC time is lossless one way and tight the other.** Eight octets are read as an instant of
the second they name, and that instant is written as the same octets; an instant of the years
the format covers is written, and read back in the same second, with the same quality and at
most 60 nanoseconds away. -/
theorem utcTime_lossless_and_tight (runtime : Runtime) (octets : Octets) (time : Instant)
    (quality : UInt8) :
    (octets.length = 8 → ∃ read last, decodeUTCTime octets = .ok (read, last) ∧
      read.unix = beNat (octets.take 4) ∧ read.nanosecond ≤ 999999999 ∧
      encodeUTCTime runtime read last = .ok octets) ∧
    (0 ≤ time.unix → time.unix ≤ 2 ^ 32 - 1 → ∃ content read,
      encodeUTCTime runtime time quality = .ok content ∧
      decodeUTCTime content = .ok (read, quality) ∧ read.unix = time.unix ∧
      |(read.nanosecond : Int) - time.nanosecond| ≤ 60) := by
  constructor
  · intro eight
    obtain ⟨seconds, frac, last, rfl, four, three⟩ := utcTime_fields eight
    obtain ⟨within, decoded⟩ := decodeUTCTime_eq four three last
    obtain ⟨second, encoded⟩ := encodeUTCTime_fields runtime four three decoded last
    refine ⟨_, last, decoded, ?_, by simp only; omega, encoded⟩
    rw [second, List.append_assoc, List.take_left' four]
  · intro low high
    obtain ⟨bound, above, below⟩ := nanoseconds_of_fraction time.below_second
    obtain ⟨within, decoded⟩ := decodeUTCTime_eq (length_beOctets 4 time.unix.toNat)
      (length_beOctets 3 (min ((time.nanosecond * 2 ^ 24 + 500000000) / 1000000000) (2 ^ 24 - 1)))
      quality
    refine ⟨_, _, encodeUTCTime_eq runtime low (by omega) quality, decoded, ?_, ?_⟩
    · simp only [beNat_beOctets_of_lt (show time.unix.toNat < 256 ^ 4 by omega)]
      omega
    · rw [abs_le]
      simp only [beNat_beOctets_of_lt (show _ < 256 ^ 3 from bound)]
      omega

/-- The last fraction of a second, and an instant whose nanoseconds saturate it. -/
theorem utcTime_lossless_last :
    (∃ read last, decodeUTCTime [0, 0, 0, 1, 0xff, 0xff, 0xff, 0x0a] = .ok (read, last) ∧
      encodeUTCTime default read last = .ok [0, 0, 0, 1, 0xff, 0xff, 0xff, 0x0a]) ∧
    ∃ content read, encodeUTCTime default ⟨4294967295, 999999999, by decide⟩ 0x0a = .ok content ∧
      decodeUTCTime content = .ok (read, 0x0a) ∧ read.unix = 4294967295 := by
  obtain ⟨lossless, tight⟩ := utcTime_lossless_and_tight default
    [0, 0, 0, 1, 0xff, 0xff, 0xff, 0x0a] ⟨4294967295, 999999999, by decide⟩ 0x0a
  obtain ⟨read, last, decoded, -, -, encoded⟩ := lossless rfl
  obtain ⟨content, back, written, readBack, second, -⟩ := tight (by decide) (by decide)
  exact ⟨⟨read, last, decoded, encoded⟩, content, back, written, readBack, second⟩

/-- The times `encodeBinaryTimeChecked` accepts. -/
def BinaryTimeRange (msEpoch : Int64) : Prop :=
  (0 ≤ msEpoch.toInt ∧ msEpoch.toInt < msPerDay) ∨
    (binaryTimeMinMs ≤ msEpoch.toInt ∧ msEpoch.toInt ≤ binaryTimeMaxMs)

private theorem day_eq : msPerDay = 86400000 := rfl

private theorem min_eq : binaryTimeMinMs = 441763200000 := rfl

private theorem max_eq : binaryTimeMaxMs = 441763200000 + 65536 * 86400000 - 1 := rfl

theorem decodeBinaryTime_encodeBinaryTimeChecked (runtime : Runtime)
    (range : BinaryTimeRange msEpoch) :
    ∃ content, encodeBinaryTimeChecked runtime msEpoch = .ok content ∧
      decodeBinaryTime content = .ok msEpoch := by
  have day := day_eq
  have earliest := min_eq
  have latest := max_eq
  unfold BinaryTimeRange at range
  unfold encodeBinaryTimeChecked
  by_cases today : msEpoch.toInt ≥ 0 ∧ msEpoch.toInt < msPerDay
  · rw [if_pos today]
    refine ⟨_, rfl, ?_⟩
    have back : beNat ((beOctets 4 msEpoch.toInt.toNat).take 4) = msEpoch.toInt.toNat := by
      rw [List.take_of_length_le (by simp), beNat_beOctets_of_lt (by omega)]
    simp only [decodeBinaryTime, back, length_beOctets]
    rw [if_neg (by omega), if_pos trivial, Int.toNat_of_nonneg today.1, Int64.ofInt_toInt]
  · rw [if_neg today, if_neg (by omega)]
    refine ⟨_, rfl, ?_⟩
    obtain ⟨days, daysEq⟩ : ∃ days, days = (msEpoch.toInt - binaryTimeMinMs) / msPerDay := ⟨_, rfl⟩
    obtain ⟨rest, restEq⟩ : ∃ rest, rest = msEpoch.toInt % msPerDay := ⟨_, rfl⟩
    have truncated : (msEpoch.toInt - binaryTimeMinMs).tdiv msPerDay % 0x10000 = days := by
      rw [Int.tdiv_eq_ediv_of_nonneg (by omega), ← daysEq]
      rw [day, earliest] at daysEq
      omega
    rw [day] at restEq
    rw [day, earliest] at daysEq
    have low : beNat (beOctets 4 rest.toNat) = rest.toNat := beNat_beOctets_of_lt (by omega)
    have high : beNat (beOctets 2 days.toNat) = days.toNat := beNat_beOctets_of_lt (by omega)
    have fields : encodeBinaryTime msEpoch = beOctets 4 rest.toNat ++ beOctets 2 days.toNat := by
      simp only [encodeBinaryTime, truncated]
      rw [restEq, day]
    simp only [fields, decodeBinaryTime, List.length_append, length_beOctets,
      List.take_left' (length_beOctets 4 rest.toNat),
      List.drop_left' (length_beOctets 4 rest.toNat),
      low, high]
    rw [if_neg (by omega), if_neg (by decide), if_pos trivial]
    have whole : binaryTimeMinMs + (days.toNat : Int) * msPerDay + rest.toNat = msEpoch.toInt := by
      rw [day, earliest]
      omega
    rw [whole, Int64.ofInt_toInt]

theorem encodeBinaryTimeChecked_ok_iff {runtime : Runtime} (msEpoch : Int64) :
    (∃ octets, encodeBinaryTimeChecked runtime msEpoch = .ok octets) ↔ BinaryTimeRange msEpoch := by
  simp only [encodeBinaryTimeChecked, BinaryTimeRange]
  split
  · next day => simp; omega
  rename_i later
  split
  · next outside => simp; omega
  · next inside => simp; omega

theorem decodeBinaryTime_ok (runtime : Runtime) (ok : decodeBinaryTime content = .ok msEpoch) :
    BinaryTimeRange msEpoch ∧ ∃ again, encodeBinaryTimeChecked runtime msEpoch = .ok again ∧
      again.length ≤ content.length := by
  have day := day_eq
  have earliest := min_eq
  have latest := max_eq
  have bound := beNat_lt (content.drop 4)
  have nonneg : (0 : Int) ≤ beNat (content.take 4) := Int.natCast_nonneg _
  unfold decodeBinaryTime at ok
  dsimp only at ok
  split at ok
  · simp at ok
  rename_i small
  split at ok
  · rename_i four
    simp only [Except.ok.injEq] at ok
    subst ok
    have value : (Int64.ofInt (beNat (content.take 4))).toInt = beNat (content.take 4) :=
      Int64.toInt_ofInt_of_le (by omega) (by omega)
    have today : (Int64.ofInt (beNat (content.take 4))).toInt ≥ 0 ∧
        (Int64.ofInt (beNat (content.take 4))).toInt < msPerDay := by omega
    refine ⟨.inl today, ?_⟩
    unfold encodeBinaryTimeChecked
    rw [if_pos today]
    exact ⟨_, rfl, by simp [four]⟩
  · split at ok
    · rename_i six
      simp only [Except.ok.injEq] at ok
      rw [List.length_drop, six] at bound
      have value : msEpoch.toInt =
          binaryTimeMinMs + beNat (content.drop 4) * msPerDay + beNat (content.take 4) := by
        rw [← ok]
        rw [day, earliest] at *
        exact Int64.toInt_ofInt_of_le (by omega) (by omega)
      rw [day] at value
      have inside : binaryTimeMinMs ≤ msEpoch.toInt ∧ msEpoch.toInt ≤ binaryTimeMaxMs := by
        omega
      refine ⟨.inr inside, ?_⟩
      unfold encodeBinaryTimeChecked
      rw [if_neg (by omega), if_neg (by omega)]
      exact ⟨_, rfl, by simp [encodeBinaryTime, six]⟩
    · simp at ok

end GoMms.Pdu
