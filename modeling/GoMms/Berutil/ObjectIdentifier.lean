import GoMms.Foundation.TwosComplement
import GoMms.Foundation.OffsetLoop

/-!
# OBJECT IDENTIFIER contents

Base-128 arcs, most significant group first, with the continuation bit on every octet but
the last. The decoder reads at most six groups, so its arcs stay below `2 ^ 42` and no Go
`int` overflows while it accumulates them.
-/

namespace GoMms.Berutil

open Octets

/-- The groups `for v > 0 { tmp[i] = byte(v&0x7f)|0x80; v >>= 7 }` in front of the last one. -/
def continuation (value : Nat) : Octets :=
  if value = 0 then [] else continuation (value / 128) ++ [UInt8.ofNat (value % 128) ||| 0x80]

def appendBase128 (value : Int64) : Octets :=
  if value.toInt < 0x80 then [UInt8.ofInt (value.toInt % 128)]
  else continuation (value.toInt.toNat / 128) ++ [UInt8.ofNat (value.toInt.toNat % 128)]

/-- The loop of `decodeBase128` from value `value` after `count` groups. -/
def decodeGroups : Octets → (value count : Nat) → Except String (Nat × Nat)
  | [], _, _ => .error "truncated base128 integer"
  | octet :: rest, value, count =>
    let value := value * 128 + (octet &&& 0x7f).toNat
    let count := count + 1
    if !highBit octet then .ok (value, count)
    else if count > 5 then .error "base128 integer too large"
    else decodeGroups rest value count

def decodeBase128 (data : Octets) (offset : Nat) : Except String (Nat × Nat) :=
  decodeGroups (data.drop offset) 0 0

def encodeObjectIdentifier (oid : List Int64) : Except String Octets :=
  match oid with
  | first :: second :: rest =>
    if first < 0 ∨ first > 2 then
      .error ("OID first arc " ++ toString first ++ " not in 0..2")
    else if second < 0 ∨ (first < 2 ∧ second ≥ 40) then
      .error ("OID second arc " ++ toString second ++ " out of range for first arc " ++
        toString first)
    else
      match rest.findIdx? (· < 0) with
      | some index => .error ("OID arc " ++ toString (index + 2) ++ " is negative")
      | none => .ok (appendBase128 (first * 40 + second) ++ rest.flatMap appendBase128)
  | _ => .error "OID must have at least 2 arcs"

/-- The two leading arcs packed into the first subidentifier `40 X + Y`. -/
def splitFirst (first : Nat) : List Int64 :=
  if first < 40 then [0, Int64.ofNat first]
  else if first < 80 then [1, Int64.ofNat (first - 40)]
  else [2, Int64.ofNat (first - 80)]

/-- One pass of the arc loop. -/
def decodeArc (data : Octets) (oid : List Int64) (offset : Nat) :
    Except String (LoopStep (List Int64)) :=
  match decodeBase128 data offset with
  | .error text => .error ("OID arc at offset " ++ toString offset ++ ": " ++ text)
  | .ok (arc, count) => .ok (.next (oid ++ [Int64.ofNat arc]) (offset + count))

def decodeObjectIdentifier (data : Octets) : Except String (List Int64) :=
  if data.length = 0 then .error "empty OID content"
  else
    match decodeBase128 data 0 with
    | .error text => .error ("OID first component: " ++ text)
    | .ok (first, count) =>
      match offsetLoop data.length (decodeArc data) (splitFirst first) count with
      | .error text => .error text
      | .ok (oid, _) => .ok oid

/-! ## Groups -/

theorem appendBase128_of_nonneg {value : Int64} (nonneg : 0 ≤ value.toInt) :
    appendBase128 value =
      continuation (value.toInt.toNat / 128) ++ [UInt8.ofNat (value.toInt.toNat % 128)] := by
  unfold appendBase128
  split
  · rename_i small
    have zero : value.toInt.toNat / 128 = 0 := by omega
    rw [zero, continuation, if_pos rfl, List.nil_append]
    congr 1
    simp only [UInt8.ofInt]
    congr 1
    omega
  · rfl

theorem low_group (value : Nat) :
    (UInt8.ofNat (value % 128) &&& 0x7f).toNat = value % 128 ∧
      highBit (UInt8.ofNat (value % 128)) = false := by
  have table : ∀ index : Fin 128, (UInt8.ofNat index.val &&& 0x7f).toNat = index.val ∧
      highBit (UInt8.ofNat index.val) = false := by
    decide +kernel
  exact table ⟨value % 128, Nat.mod_lt _ (by decide)⟩

theorem continued_group (value : Nat) :
    ((UInt8.ofNat (value % 128) ||| 0x80) &&& 0x7f).toNat = value % 128 ∧
      highBit (UInt8.ofNat (value % 128) ||| 0x80) = true := by
  have table : ∀ index : Fin 128, ((UInt8.ofNat index.val ||| 0x80) &&& 0x7f).toNat = index.val ∧
      highBit (UInt8.ofNat index.val ||| 0x80) = true := by
    decide +kernel
  exact table ⟨value % 128, Nat.mod_lt _ (by decide)⟩

variable {value count : Nat} {data : Octets} {first second : Int64} {oid : List Int64}

theorem length_continuation_le {width : Nat} (fits : value < 128 ^ width) :
    (continuation value).length ≤ width := by
  induction width generalizing value with
  | zero =>
    have zero : value = 0 := by simpa using fits
    simp [zero, continuation]
  | succ width ih =>
    rw [continuation]
    split
    · simp
    · have quotient : value / 128 < 128 ^ width := by
        rw [pow_succ] at fits
        omega
      simpa using ih quotient

/-- Reading the continued groups of `value` shifts the accumulator by their width. -/
private theorem decodeGroups_continuation (value start count : Nat) (rest : Octets)
    (few : count + (continuation value).length ≤ 5) :
    decodeGroups (continuation value ++ rest) start count =
      decodeGroups rest (start * 128 ^ (continuation value).length + value)
        (count + (continuation value).length) := by
  fun_induction continuation value generalizing rest with
  | case1 => simp
  | case2 value positive ih =>
    obtain ⟨low, more⟩ := continued_group value
    simp only [List.length_append, List.length_cons, List.length_nil] at few ⊢
    rw [List.append_assoc, ih _ (by omega), List.cons_append, List.nil_append, decodeGroups, low,
      more]
    simp only [Bool.not_true, Bool.false_eq_true, ↓reduceIte]
    rw [if_neg (by omega)]
    congr 1
    rw [pow_succ]
    have split := Nat.div_add_mod value 128
    nlinarith

theorem decodeBase128_appendBase128 {value : Int64} (nonneg : 0 ≤ value.toInt)
    (small : value.toInt < 2 ^ 42) (front rest : Octets) :
    decodeBase128 (front ++ appendBase128 value ++ rest) front.length =
      .ok (value.toInt.toNat, (appendBase128 value).length) := by
  have few : (continuation (value.toInt.toNat / 128)).length ≤ 5 :=
    length_continuation_le (show value.toInt.toNat / 128 < 128 ^ 5 by omega)
  obtain ⟨low, last⟩ := low_group value.toInt.toNat
  rw [appendBase128_of_nonneg nonneg]
  simp only [decodeBase128, List.append_assoc, List.drop_left', List.cons_append, List.nil_append]
  rw [decodeGroups_continuation _ 0 0 _ (by omega), decodeGroups, low, last]
  simp only [Bool.not_false, ↓reduceIte, Except.ok.injEq, Prod.mk.injEq, List.length_append,
    List.length_cons, List.length_nil]
  omega

theorem lt_pow_length_continuation (value : Nat) : value < 128 ^ (continuation value).length := by
  fun_induction continuation value with
  | case1 => simp
  | case2 value positive ih =>
    rw [List.length_append, List.length_singleton, pow_succ]
    omega

theorem highBit_of_mem_continuation {octet : UInt8} (member : octet ∈ continuation value) :
    highBit octet = true := by
  fun_induction continuation value with
  | case1 => simp at member
  | case2 value positive ih =>
    rcases List.mem_append.mp member with earlier | last
    · exact ih earlier
    · rw [List.mem_singleton.mp last]
      exact (continued_group value).2

/-- The sixth group has to be the last one. -/
private theorem decodeGroups_too_large {octets : Octets}
    (continued : ∀ octet ∈ octets, highBit octet) (rest : Octets) (value : Nat) (few : count ≤ 5)
    (many : 6 ≤ count + octets.length) :
    decodeGroups (octets ++ rest) value count = .error "base128 integer too large" := by
  induction octets generalizing value count with
  | nil =>
    simp only [List.length_nil] at many
    omega
  | cons octet octets ih =>
    have more : highBit octet = true := continued octet List.mem_cons_self
    simp only [List.cons_append, decodeGroups, more, Bool.not_true, Bool.false_eq_true, ↓reduceIte]
    split
    · rfl
    · simp only [List.length_cons] at many
      exact ih (fun other member => continued other (List.mem_cons_of_mem _ member)) _ (by omega)
        (by omega)

/-- An arc of more than six groups is rejected wherever it stands. -/
theorem decodeBase128_too_large {value : Int64} (large : 2 ^ 42 ≤ value.toInt)
    (front rest : Octets) :
    decodeBase128 (front ++ appendBase128 value ++ rest) front.length =
      .error "base128 integer too large" := by
  have groups := lt_pow_length_continuation (value.toInt.toNat / 128)
  have many : 6 ≤ (continuation (value.toInt.toNat / 128)).length := by
    by_contra few
    have power : 128 ^ (continuation (value.toInt.toNat / 128)).length ≤ 128 ^ 5 :=
      Nat.pow_le_pow_right (by decide) (by omega)
    omega
  rw [appendBase128_of_nonneg (by omega), decodeBase128, List.append_assoc, List.drop_left',
    List.append_assoc]
  · exact decodeGroups_too_large (fun _ member => highBit_of_mem_continuation member) _ 0 (by omega)
      (by omega)
  · rfl

theorem length_appendBase128_pos {value : Int64} (nonneg : 0 ≤ value.toInt) :
    0 < (appendBase128 value).length := by
  simp [appendBase128_of_nonneg nonneg]

private theorem decodeGroups_ok {start before : Nat} (few : before ≤ 5)
    (ok : decodeGroups data start before = .ok (value, count)) :
    before < count ∧ count ≤ 6 ∧ count ≤ before + data.length ∧
      value < (start + 1) * 128 ^ (count - before) := by
  induction data generalizing start before with
  | nil => simp [decodeGroups] at ok
  | cons octet rest ih =>
    have group : (octet &&& 0x7f).toNat < 128 := by
      rw [UInt8.toNat_and]
      exact Nat.lt_of_le_of_lt Nat.and_le_right (by decide)
    simp only [decodeGroups] at ok
    split at ok
    · simp only [Except.ok.injEq, Prod.mk.injEq] at ok
      obtain ⟨rfl, rfl⟩ := ok
      simp only [List.length_cons, Nat.add_sub_cancel_left, pow_one]
      omega
    · split at ok
      · simp at ok
      · obtain ⟨later, most, inside, bound⟩ := ih (by omega) ok
        refine ⟨by omega, most, by simp only [List.length_cons]; omega, ?_⟩
        have width : count - before = count - (before + 1) + 1 := by omega
        rw [width, pow_succ]
        have scaled : (start * 128 + (octet &&& 0x7f).toNat + 1) * 128 ^ (count - (before + 1)) ≤
            ((start + 1) * 128) * 128 ^ (count - (before + 1)) :=
          Nat.mul_le_mul_right _ (by omega)
        calc value < _ := bound
          _ ≤ _ := scaled
          _ = _ := by ring

/-- An accepted arc takes one to six octets and fits their groups. -/
theorem decodeBase128_ok {offset : Nat} (ok : decodeBase128 data offset = .ok (value, count)) :
    1 ≤ count ∧ count ≤ 6 ∧ count ≤ data.length - offset ∧ value < 128 ^ count := by
  have spec := decodeGroups_ok (by omega) ok
  simp only [List.length_drop, Nat.sub_zero, Nat.zero_add, Nat.one_mul] at spec
  exact ⟨by omega, by omega, by omega, spec.2.2.2⟩

/-! ## Identifiers -/

/-- The identifiers both directions of the codec handle: valid leading arcs, and every
subidentifier within the decoder's six groups. -/
structure CodableOid (oid : List Int64) : Prop where
  exists_arcs : ∃ first second rest, oid = first :: second :: rest ∧
    0 ≤ first.toInt ∧ first.toInt ≤ 2 ∧ 0 ≤ second.toInt ∧
    (first.toInt < 2 → second.toInt < 40) ∧ first.toInt * 40 + second.toInt < 2 ^ 42 ∧
    ∀ arc ∈ rest, 0 ≤ arc.toInt ∧ arc.toInt < 2 ^ 42

private theorem ofNat_toNat_toInt {value : Int64} (nonneg : 0 ≤ value.toInt) :
    Int64.ofNat value.toInt.toNat = value := by
  have high := value.toInt_lt
  apply Int64.toInt_inj.mp
  rw [Int64.toInt_ofNat_of_lt (by omega)]
  omega

private theorem first_toInt (low : 0 ≤ first.toInt) (high : first.toInt ≤ 2)
    (nonneg : 0 ≤ second.toInt) (small : first.toInt * 40 + second.toInt < 2 ^ 63) :
    (first * 40 + second).toInt = first.toInt * 40 + second.toInt := by
  have forty : (40 : Int64).toInt = 40 := rfl
  have product : first * 40 + second = Int64.ofInt (first.toInt * 40 + second.toInt) := by
    rw [Int64.ofInt_add, Int64.ofInt_mul, Int64.ofInt_toInt, Int64.ofInt_toInt]
    rfl
  rw [product, Int64.toInt_ofInt_of_le (by omega) (by omega)]

/-- The encoder accepts a codable identifier and writes its subidentifiers in order. -/
theorem encodeObjectIdentifier_eq {rest : List Int64} (low : 0 ≤ first.toInt)
    (high : first.toInt ≤ 2) (nonneg : 0 ≤ second.toInt)
    (range : first.toInt < 2 → second.toInt < 40) (arcs : ∀ arc ∈ rest, 0 ≤ arc.toInt) :
    encodeObjectIdentifier (first :: second :: rest) =
      .ok (appendBase128 (first * 40 + second) ++ rest.flatMap appendBase128) := by
  have zero : (0 : Int64).toInt = 0 := rfl
  have two : (2 : Int64).toInt = 2 := rfl
  have forty : (40 : Int64).toInt = 40 := rfl
  have none : rest.findIdx? (· < 0) = none := by
    rw [List.findIdx?_eq_none_iff]
    intro arc member
    have := arcs arc member
    simp only [decide_eq_false_iff_not, Int64.lt_iff_toInt_lt, zero]
    omega
  simp only [encodeObjectIdentifier, none]
  rw [if_neg, if_neg]
  · simp only [Int64.lt_iff_toInt_lt, ge_iff_le, Int64.le_iff_toInt_le, zero, two, forty]
    omega
  · simp only [Int64.lt_iff_toInt_lt, gt_iff_lt, zero, two]
    omega

/-- The identifiers that the encoder accepts: two or more arcs, none negative, the first two of
them valid. -/
def IsObjectIdentifier : List Int64 → Prop
  | first :: second :: rest => (0 ≤ first.toInt ∧ first.toInt ≤ 2) ∧
      (0 ≤ second.toInt ∧ (first.toInt < 2 → second.toInt < 40)) ∧ ∀ arc ∈ rest, 0 ≤ arc.toInt
  | _ => False

theorem encodeObjectIdentifier_ok_iff (oid : List Int64) :
    (∃ content, encodeObjectIdentifier oid = .ok content) ↔ IsObjectIdentifier oid := by
  match oid with
  | [] => simp [encodeObjectIdentifier, IsObjectIdentifier]
  | [arc] => simp [encodeObjectIdentifier, IsObjectIdentifier]
  | first :: second :: rest =>
    have zero : (0 : Int64).toInt = 0 := rfl
    have two : (2 : Int64).toInt = 2 := rfl
    have forty : (40 : Int64).toInt = 40 := rfl
    constructor
    · rintro ⟨content, encoded⟩
      unfold encodeObjectIdentifier at encoded
      simp only [gt_iff_lt, ge_iff_le, Int64.lt_iff_toInt_lt, Int64.le_iff_toInt_le, zero, two,
        forty] at encoded
      split_ifs at encoded with leading following
      split at encoded
      · cases encoded
      rename_i none
      refine ⟨⟨by omega, by omega⟩, ⟨by omega, by omega⟩, fun arc member => ?_⟩
      have nonneg := List.findIdx?_eq_none_iff.mp none arc member
      simpa using nonneg
    · rintro ⟨⟨low, high⟩, ⟨nonneg, range⟩, arcs⟩
      exact ⟨_, encodeObjectIdentifier_eq low high nonneg range arcs⟩

/-- The arc loop passes over arcs that fit its groups, whatever follows them. -/
private theorem offsetLoop_arcs (front tail : Octets) (arcs done : List Int64)
    (small : ∀ arc ∈ arcs, 0 ≤ arc.toInt ∧ arc.toInt < 2 ^ 42) :
    offsetLoop (front ++ (arcs.flatMap appendBase128 ++ tail)).length
        (decodeArc (front ++ (arcs.flatMap appendBase128 ++ tail))) done front.length =
      offsetLoop (front ++ (arcs.flatMap appendBase128 ++ tail)).length
        (decodeArc (front ++ (arcs.flatMap appendBase128 ++ tail))) (done ++ arcs)
        (front ++ arcs.flatMap appendBase128).length := by
  have loop := offsetLoop_items_before appendBase128 (fun done arc => done ++ [arc]) decodeArc
    (fun _ arcs => ∀ arc ∈ arcs, 0 ≤ arc.toInt ∧ arc.toInt < 2 ^ 42) tail ?_ arcs front done small
  · rwa [List.foldl_append_eq_append, ← List.flatMap_def, List.flatMap_singleton'] at loop
  · intro front arc rest done fits
    obtain ⟨⟨nonneg, bound⟩, others⟩ := List.forall_mem_cons.mp fits
    refine ⟨?_, List.ne_nil_of_length_pos (length_appendBase128_pos nonneg), others⟩
    rw [decodeArc, decodeBase128_appendBase128 nonneg bound]
    simp only [ofNat_toNat_toInt nonneg]

private theorem splitFirst_spec (first : Nat) (small : first < 2 ^ 42) :
    ∃ major minor : Int64, splitFirst first = [major, minor] ∧ 0 ≤ major.toInt ∧
      major.toInt ≤ 2 ∧ 0 ≤ minor.toInt ∧ (major.toInt < 2 → minor.toInt < 40) ∧
      major.toInt * 40 + minor.toInt = first := by
  have zero : (0 : Int64).toInt = 0 := rfl
  have one : (1 : Int64).toInt = 1 := rfl
  have two : (2 : Int64).toInt = 2 := rfl
  unfold splitFirst
  split
  · refine ⟨0, Int64.ofNat first, rfl, ?_⟩
    rw [Int64.toInt_ofNat_of_lt (by omega), zero]
    omega
  · split
    · refine ⟨1, Int64.ofNat (first - 40), rfl, ?_⟩
      rw [Int64.toInt_ofNat_of_lt (by omega), one]
      omega
    · refine ⟨2, Int64.ofNat (first - 80), rfl, ?_⟩
      rw [Int64.toInt_ofNat_of_lt (by omega), two]
      omega

private theorem splitFirst_eq (low : 0 ≤ first.toInt) (high : first.toInt ≤ 2)
    (nonneg : 0 ≤ second.toInt) (range : first.toInt < 2 → second.toInt < 40)
    (small : first.toInt * 40 + second.toInt < 2 ^ 42) :
    splitFirst (first.toInt * 40 + second.toInt).toNat = [first, second] := by
  obtain ⟨major, minor, split, arcs⟩ :=
    splitFirst_spec (first.toInt * 40 + second.toInt).toNat (by omega)
  have same : major.toInt = first.toInt ∧ minor.toInt = second.toInt := by omega
  rw [split, Int64.toInt_inj.mp same.1, Int64.toInt_inj.mp same.2]

/-- A codable identifier is encoded, and decoding the contents gives it back. -/
theorem CodableOid.roundTrip (codable : CodableOid oid) :
    ∃ content, encodeObjectIdentifier oid = .ok content ∧
      decodeObjectIdentifier content = .ok oid := by
  obtain ⟨first, second, rest, rfl, low, high, nonneg, range, small, arcs⟩ := codable.exists_arcs
  have packed := first_toInt low high nonneg (by omega)
  have packedNonneg : 0 ≤ (first * 40 + second).toInt := by omega
  have packedSmall : (first * 40 + second).toInt < 2 ^ 42 := by omega
  refine ⟨_,
    encodeObjectIdentifier_eq low high nonneg range (fun arc member => (arcs arc member).1),
    ?_⟩
  have positive := length_appendBase128_pos packedNonneg
  have lead := decodeBase128_appendBase128 packedNonneg packedSmall [] (rest.flatMap appendBase128)
  have loop := offsetLoop_arcs (appendBase128 (first * 40 + second)) [] rest [first, second] arcs
  rw [List.append_nil, offsetLoop_done le_rfl] at loop
  simp only [List.nil_append, List.length_nil] at lead
  unfold decodeObjectIdentifier
  rw [if_neg (by simp only [List.length_append]; omega), lead]
  simp only [packed, splitFirst_eq low high nonneg range small, loop, List.cons_append,
    List.nil_append]

/-- Every arc of an accepted identifier was read from its own octets, so the shortest
encoding of the arcs is no longer than the octets read. -/
private theorem length_appendBase128_le (positive : 1 ≤ count) (few : count ≤ 6)
    (fits : value < 128 ^ count) :
    (Int64.ofNat value).toInt = value ∧ (appendBase128 (Int64.ofNat value)).length ≤ count := by
  have power : 128 ^ count ≤ 128 ^ 6 := Nat.pow_le_pow_right (by decide) few
  have exact : (Int64.ofNat value).toInt = value := Int64.toInt_ofNat_of_lt (by omega)
  refine ⟨exact, ?_⟩
  have quotient : value / 128 < 128 ^ (count - 1) := by
    rw [Nat.div_lt_iff_lt_mul (by decide), ← pow_succ, Nat.sub_add_cancel positive]
    exact fits
  have groups := length_continuation_le quotient
  rw [appendBase128_of_nonneg (by omega), exact, Int.toNat_natCast, List.length_append]
  simp only [List.length_cons, List.length_nil]
  omega

/-- The arcs collected so far are codable and took at least their shortest encoding. -/
private def ArcsRead (lead : Int64) (leading oid : List Int64) (offset : Nat) : Prop :=
  ∃ rest, oid = leading ++ rest ∧ (∀ arc ∈ rest, 0 ≤ arc.toInt ∧ arc.toInt < 2 ^ 42) ∧
    (appendBase128 lead ++ rest.flatMap appendBase128).length ≤ offset

/-- Whatever padding its arcs had, an accepted identifier is codable, and encoding it again
does not take more octets than were read. -/
theorem decodeObjectIdentifier_ok (ok : decodeObjectIdentifier data = .ok oid) :
    CodableOid oid ∧ ∃ content, encodeObjectIdentifier oid = .ok content ∧
      content.length ≤ data.length := by
  unfold decodeObjectIdentifier at ok
  split at ok
  · simp at ok
  · split at ok
    · simp at ok
    rename_i first count lead
    obtain ⟨positive, few, inside, fits⟩ := decodeBase128_ok lead
    have power : 128 ^ count ≤ 128 ^ 6 := Nat.pow_le_pow_right (by decide) few
    obtain ⟨major, minor, leading, low, high, nonneg, range, whole⟩ :=
      splitFirst_spec first (by omega)
    obtain ⟨exactFirst, shortFirst⟩ := length_appendBase128_le positive few fits
    split at ok
    · simp at ok
    rename_i final last loop
    simp only [Except.ok.injEq] at ok
    subst ok
    have invariant : ArcsRead (Int64.ofNat first) [major, minor] final last ∧
        last ≤ data.length := by
      refine offsetLoop_invariant
        (fun oid offset => ArcsRead (Int64.ofNat first) [major, minor] oid offset ∧
          offset ≤ data.length) ?_ ?_ loop
      · rintro arcs offset step ⟨⟨rest, rfl, small, short⟩, bound⟩ below pass
        unfold decodeArc at pass
        split at pass
        · cases pass
        rename_i arc width read
        cases pass
        obtain ⟨wide, atMost, fit, arcFits⟩ := decodeBase128_ok read
        have arcPower : 128 ^ width ≤ 128 ^ 6 := Nat.pow_le_pow_right (by decide) atMost
        obtain ⟨exactArc, shortArc⟩ := length_appendBase128_le wide atMost arcFits
        simp only [LoopStep.state, LoopStep.offset]
        refine ⟨⟨rest ++ [Int64.ofNat arc], by simp, ?_, ?_⟩, by omega⟩
        · intro other member
          rcases List.mem_append.mp member with earlier | here
          · exact small other earlier
          · rw [List.mem_singleton.mp here, exactArc]
            omega
        · simp only [List.flatMap_append, List.flatMap_cons, List.flatMap_nil,
            List.append_nil, List.length_append] at short ⊢
          omega
      · rw [leading]
        exact ⟨⟨[], by simp, by simp, by simpa using shortFirst⟩, by omega⟩
    obtain ⟨⟨rest, rfl, small, short⟩, bound⟩ := invariant
    have packed : major * 40 + minor = Int64.ofNat first := by
      apply Int64.toInt_inj.mp
      rw [first_toInt low high nonneg (by omega), exactFirst, whole]
    refine ⟨⟨major, minor, rest, rfl, low, high, nonneg, range, by omega, small⟩, _,
      encodeObjectIdentifier_eq low high nonneg range (fun arc member => (small arc member).1), ?_⟩
    rw [packed]
    exact short.trans bound

/-! ## Which identifiers come back -/

/-- The numbers an identifier is written with: the two leading arcs packed into one, as exact
integers, and the other arcs. -/
def subidentifiers : List Int64 → List Int
  | first :: second :: rest => (first.toInt * 40 + second.toInt) :: rest.map Int64.toInt
  | _ => []

theorem codableOid_iff (oid : List Int64) :
    CodableOid oid ↔ IsObjectIdentifier oid ∧ ∀ number ∈ subidentifiers oid, number < 2 ^ 42 := by
  constructor
  · rintro ⟨first, second, rest, rfl, low, high, nonneg, range, packed, arcs⟩
    refine ⟨⟨⟨low, high⟩, ⟨nonneg, range⟩, fun arc member => (arcs arc member).1⟩, ?_⟩
    simp only [subidentifiers, List.forall_mem_cons, List.forall_mem_map]
    exact ⟨packed, fun arc member => (arcs arc member).2⟩
  · rintro ⟨valid, small⟩
    match oid, valid with
    | first :: second :: rest, ⟨⟨low, high⟩, ⟨nonneg, range⟩, arcs⟩ =>
      simp only [subidentifiers, List.forall_mem_cons, List.forall_mem_map] at small
      exact ⟨first, second, rest, rfl, low, high, nonneg, range, small.1,
        fun arc member => ⟨arcs arc member, small.2 arc member⟩⟩

/-- The decoder stops at the first arc of more than six groups. -/
private theorem decodeObjectIdentifier_large_arc {lead : Int64} {arcs more : List Int64}
    {large : Int64} (nonneg : 0 ≤ lead.toInt) (leading : lead.toInt < 2 ^ 42)
    (small : ∀ arc ∈ arcs, 0 ≤ arc.toInt ∧ arc.toInt < 2 ^ 42) (wide : 2 ^ 42 ≤ large.toInt) :
    ∃ text, decodeObjectIdentifier (appendBase128 lead ++
      (arcs ++ large :: more).flatMap appendBase128) = .error text := by
  have positive := length_appendBase128_pos nonneg
  have some := length_appendBase128_pos (show 0 ≤ large.toInt by omega)
  obtain ⟨tail, tailEq⟩ : ∃ tail, tail = appendBase128 large ++ more.flatMap appendBase128 :=
    ⟨_, rfl⟩
  have shape : appendBase128 lead ++ (arcs ++ large :: more).flatMap appendBase128 =
      appendBase128 lead ++ (arcs.flatMap appendBase128 ++ tail) := by
    rw [tailEq, List.flatMap_append, List.flatMap_cons]
  have first := decodeBase128_appendBase128 nonneg leading [] (arcs.flatMap appendBase128 ++ tail)
  have stuck := decodeBase128_too_large wide (appendBase128 lead ++ arcs.flatMap appendBase128)
    (more.flatMap appendBase128)
  rw [List.append_assoc _ (appendBase128 large), ← tailEq, List.append_assoc] at stuck
  have loop := offsetLoop_arcs (appendBase128 lead) tail arcs (splitFirst lead.toInt.toNat) small
  rw [List.nil_append, List.length_nil] at first
  rw [shape, decodeObjectIdentifier, if_neg (by simp only [List.length_append]; omega), first]
  dsimp only
  rw [loop, offsetLoop, dif_pos (by simp only [tailEq, List.length_append]; omega), decodeArc,
    stuck]
  exact ⟨_, rfl⟩

/-- An identifier whose packed leading arcs fit an `int` is rejected, and never altered, when
one of its numbers takes more than six groups. -/
theorem decodeObjectIdentifier_rejects {content : Octets}
    (encoded : encodeObjectIdentifier oid = .ok content)
    (fits : ∀ number ∈ subidentifiers oid, number < 2 ^ 63)
    (large : ∃ number ∈ subidentifiers oid, 2 ^ 42 ≤ number) :
    ∃ text, decodeObjectIdentifier content = .error text := by
  have valid := (encodeObjectIdentifier_ok_iff oid).mp ⟨content, encoded⟩
  match oid, valid with
  | first :: second :: rest, ⟨⟨low, high⟩, ⟨nonneg, range⟩, arcs⟩ =>
    rw [encodeObjectIdentifier_eq low high nonneg range arcs, Except.ok.injEq] at encoded
    subst encoded
    simp only [subidentifiers, List.forall_mem_cons, List.exists_mem_cons_iff,
      List.mem_map] at fits large
    have packed := first_toInt low high nonneg fits.1
    by_cases leading : first.toInt * 40 + second.toInt < 2 ^ 42
    · have wide : (rest.find? (fun arc => decide (2 ^ 42 ≤ arc.toInt))).isSome := by
        rcases large with packedLarge | ⟨number, ⟨arc, member, rfl⟩, wide⟩
        · omega
        · exact List.find?_isSome.mpr ⟨arc, member, decide_eq_true wide⟩
      obtain ⟨arc, found⟩ := Option.isSome_iff_exists.mp wide
      obtain ⟨beyond, before, after, rfl, small⟩ := List.find?_eq_some_iff_append.mp found
      refine decodeObjectIdentifier_large_arc (by omega) (by omega) (fun other member => ?_)
        (of_decide_eq_true beyond)
      have short := small other member
      simp only [Bool.not_eq_true', decide_eq_false_iff_not] at short
      exact ⟨arcs other (List.mem_append_left _ member), by omega⟩
    · have beyond : 2 ^ 42 ≤ (first * 40 + second).toInt := by omega
      have stuck := decodeBase128_too_large beyond [] (rest.flatMap appendBase128)
      have positive := length_appendBase128_pos (show 0 ≤ (first * 40 + second).toInt by omega)
      rw [List.nil_append, List.length_nil] at stuck
      rw [decodeObjectIdentifier, if_neg (by simp only [List.length_append]; omega), stuck]
      exact ⟨_, rfl⟩

/-- **Which encoded identifiers decode.** What the encoder accepts comes back exactly when every
number it writes fits six groups, and a larger number is rejected unless packing the leading arcs
overflowed. What the decoder accepts is always accepted again. -/
theorem objectIdentifier_roundTrip_iff {oid : List Int64} {content : Octets}
    (encoded : encodeObjectIdentifier oid = .ok content) :
    (decodeObjectIdentifier content = .ok oid ↔ ∀ number ∈ subidentifiers oid, number < 2 ^ 42) ∧
      ((∀ number ∈ subidentifiers oid, number < 2 ^ 63) →
        (∃ number ∈ subidentifiers oid, 2 ^ 42 ≤ number) →
        ∃ text, decodeObjectIdentifier content = .error text) ∧
      ∀ data read, decodeObjectIdentifier data = .ok read →
        ∃ again, encodeObjectIdentifier read = .ok again := by
  have valid := (encodeObjectIdentifier_ok_iff oid).mp ⟨content, encoded⟩
  refine ⟨⟨fun decoded => ?_, fun small => ?_⟩, decodeObjectIdentifier_rejects encoded,
    fun data read decoded => ?_⟩
  · exact ((codableOid_iff oid).mp (decodeObjectIdentifier_ok decoded).1).2
  · obtain ⟨again, same, back⟩ := ((codableOid_iff oid).mpr ⟨valid, small⟩).roundTrip
    rw [encoded, Except.ok.injEq] at same
    exact same ▸ back
  · obtain ⟨again, accepted, -⟩ := (decodeObjectIdentifier_ok decoded).2
    exact ⟨again, accepted⟩

/-- The largest last arc that comes back. -/
theorem objectIdentifier_roundTrip_max :
    decodeObjectIdentifier [0x2a, 0xff, 0xff, 0xff, 0xff, 0xff, 0x7f] =
      .ok [1, 2, 4398046511103] := by
  refine (@objectIdentifier_roundTrip_iff [1, 2, 4398046511103] _ ?_).1.mpr ?_
  · decide +kernel
  · simp only [subidentifiers, List.map_cons, List.map_nil, List.forall_mem_cons]
    decide

/-- An arc of seven groups is encoded and then rejected, and leading arcs whose packing
overflows come back as another identifier. -/
theorem objectIdentifier_not_roundTrip :
    encodeObjectIdentifier [1, 2, 4398046511104] =
        .ok [0x2a, 0x81, 0x80, 0x80, 0x80, 0x80, 0x80, 0x00] ∧
      decodeObjectIdentifier [0x2a, 0x81, 0x80, 0x80, 0x80, 0x80, 0x80, 0x00] =
        .error "OID arc at offset 1: base128 integer too large" ∧
      encodeObjectIdentifier [2, 9223372036854775807] = .ok [0x4f] ∧
      decodeObjectIdentifier [0x4f] = .ok [1, 39] := by
  decide +kernel

end GoMms.Berutil
