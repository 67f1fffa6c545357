import GoMms.Codec.Envelope

/-!
# Confirmed requests

`MarshalConfirmedRequest` on the client's side against `DecodePdu` and
`UnmarshalConfirmedRequest` on the server's. The client writes lengths with `internal/berutil`,
the server reads the envelope with `encoding/asn1`; a request within the size both can express
arrives with its invoke ID, its service tag and its body.
-/

namespace GoMms.Codec

open Octets Berutil

def marshalConfirmedRequest (invokeID : UInt32) (tagNum : Int64) (constructed : Bool)
    (servicePayload : Octets) : Octets :=
  wrapConstructed 0 (encodeTLV 0x02 (encodeInt (Int64.ofNat invokeID.toNat)) ++
    wrapContextTag tagNum constructed servicePayload)

/-! ## Lengths -/

/-- The octets of a long length are read as the number they spell. -/
theorem parseLongLength_append (octets rest : Octets) (length : Nat)
    (started : 0 < length ∨ octets.head? ≠ some 0)
    (small : length * 256 ^ octets.length + beNat octets < 2 ^ 31)
    (long : 0x80 ≤ length * 256 ^ octets.length + beNat octets) :
    Asn1.parseLongLength octets.length (octets ++ rest) length =
      .ok (length * 256 ^ octets.length + beNat octets, rest) := by
  induction octets generalizing length with
  | nil =>
    simp only [List.length_nil, pow_zero, mul_one, beNat, List.foldl_nil, Nat.add_zero] at long ⊢
    rw [List.nil_append, Asn1.parseLongLength, if_neg (Nat.not_lt.mpr long)]
  | cons octet octets ih =>
    have total : length * 256 ^ (octets.length + 1) + beNat (octet :: octets) =
        (length * 256 + octet.toNat) * 256 ^ octets.length + beNat octets := by
      rw [beNat_cons, pow_succ]
      ring
    rw [List.length_cons, total] at small long ⊢
    have power : 1 ≤ 256 ^ octets.length := Nat.one_le_pow _ _ (by decide)
    have below : length * 256 + octet.toNat < 2 ^ 31 := by
      have grow := Nat.mul_le_mul_left (length * 256 + octet.toNat) power
      omega
    have positive : 0 < length * 256 + octet.toNat := by
      rcases started with before | lead
      · omega
      · have nonzero : octet ≠ 0 := by simpa using lead
        have value : octet.toNat ≠ 0 := fun zero => nonzero (UInt8.toNat_inj.mp zero)
        omega
    rw [List.cons_append, Asn1.parseLongLength, if_neg (by omega)]
    dsimp only
    rw [if_neg (by omega)]
    exact ih _ (.inl positive) small long

/-- The most significant octet of a length is not zero. -/
theorem head?_beOctets_octetCount (value : Nat) :
    (beOctets (octetCount value) value).head? ≠ some 0 := by
  intro lead
  have whole : beNat (beOctets (octetCount value) value) = value :=
    beNat_beOctets_of_lt (lt_pow_octetCount value)
  have length : (beOctets (octetCount value) value).length = octetCount value := length_beOctets _ _
  cases octets : beOctets (octetCount value) value with
  | nil => rw [octets] at lead; cases lead
  | cons first rest =>
    rw [octets] at lead whole length
    obtain rfl : first = 0 := by simpa using lead
    have small := beNat_lt rest
    rw [beNat_zero_cons] at whole
    rw [whole] at small
    have fewer := octetCount_le small
    rw [List.length_cons] at length
    omega

/-- `encoding/asn1` reads the lengths below `2 ^ 31`. -/
theorem parseLength_appendLength {length : Nat} (fits : length < 2 ^ 31) (rest : Octets) :
    Asn1.parseLength (appendLength length ++ rest) = .ok (length, rest) := by
  unfold appendLength
  by_cases short : length < 0x80
  · have value : (UInt8.ofNat length).toNat = length := by
      rw [UInt8.toNat_ofNat']
      omega
    have clear : highBit (UInt8.ofNat length) = false := by
      rw [highBit_eq_false_iff, value]
      exact short
    have low : (UInt8.ofNat length &&& 0x7f).toNat = length := by
      rw [UInt8.toNat_and, value]
      exact Nat.and_two_pow_sub_one_of_lt_two_pow (n := 7) short
    simp only [short, if_true, List.singleton_append, Asn1.parseLength, clear, Bool.not_false, low]
  · have small : octetCount length ≤ 4 := octetCount_le (fits.trans (by decide))
    have positive := octetCount_pos (show 0 < length by omega)
    have every : ∀ count < 5, 0 < count → highBit (0x80 ||| UInt8.ofNat count) = true ∧
        ((0x80 ||| UInt8.ofNat count) &&& 0x7f : UInt8).toNat = count := by
      decide
    have lead := every (octetCount length) (Nat.lt_succ_of_le small) positive
    have whole : beNat (beOctets (octetCount length) length) = length :=
      beNat_beOctets_of_lt (lt_pow_octetCount length)
    have spelled : 0 * 256 ^ (beOctets (octetCount length) length).length +
        beNat (beOctets (octetCount length) length) = length := by
      rw [whole, Nat.zero_mul, Nat.zero_add]
    have parsed := parseLongLength_append (beOctets (octetCount length) length) rest 0
      (.inr (head?_beOctets_octetCount length)) (by omega) (by omega)
    rw [spelled, length_beOctets] at parsed
    simp only [short, if_false, List.cons_append, Asn1.parseLength, lead.1, lead.2, Bool.not_true,
      Bool.false_eq_true, Nat.pos_iff_ne_zero.mp positive]
    exact parsed

/-! ## Tag numbers -/

/-- Reading the continued groups of a number gives the number; only the first octet may not be an
empty group. -/
theorem parseBase128Int_continuation (value : Nat) (rest : Octets)
    (few : (continuation value).length ≤ 5) :
    Asn1.parseBase128Int (continuation value ++ rest) 0 0 =
      Asn1.parseBase128Int rest value (continuation value).length := by
  fun_induction continuation value generalizing rest with
  | case1 => simp
  | case2 value positive ih =>
    simp only [List.length_append, List.length_singleton] at few ⊢
    obtain ⟨low, more⟩ := continued_group value
    have started : ¬((continuation (value / 128)).length = 0 ∧
        UInt8.ofNat (value % 128) ||| 0x80 = 0x80) := by
      rintro ⟨empty, group⟩
      have quotient : value / 128 = 0 := by
        by_contra nonzero
        rw [continuation, if_neg nonzero] at empty
        simp at empty
      rw [group] at low
      have remainder : value % 128 = 0 := low.symm
      omega
    rw [List.append_assoc, ih _ (by omega), List.singleton_append, Asn1.parseBase128Int,
      if_neg (by omega), if_neg started, low, more]
    simp only [if_true]
    rw [show value / 128 * 128 + value % 128 = value by omega]

theorem parseBase128Int_encodeTagNumber {number : Nat} (positive : 0 < number)
    (small : number < 2 ^ 31) (rest : Octets) :
    Asn1.parseBase128Int (encodeTagNumber number ++ rest) 0 0 = .ok (number, rest) := by
  have few : (continuation (number / 128)).length ≤ 4 :=
    length_continuation_le (show number / 128 < 128 ^ 4 by omega)
  obtain ⟨low, last⟩ := low_group number
  have started : ¬((continuation (number / 128)).length = 0 ∧
      UInt8.ofNat (number % 128) = 0x80) := by
    rintro ⟨-, group⟩
    rw [group] at last
    exact absurd last (by decide)
  rw [encodeTagNumber, List.append_assoc, List.singleton_append,
    parseBase128Int_continuation _ _ (by omega), Asn1.parseBase128Int, if_neg (by omega),
    if_neg started, low, last]
  simp only [Bool.false_eq_true, if_false]
  rw [show number / 128 * 128 + number % 128 = number by omega, if_neg (by omega)]

/-! ## Records -/

section Records

variable {lead : UInt8} {content : Octets}

/-- A record with a one-octet tag, as `encoding/asn1` sees its header. -/
theorem parseTagAndLength_append (short : lead &&& 0x1f ≠ 0x1f)
    (fits : content.length < 2 ^ 31) (rest : Octets) :
    Asn1.parseTagAndLength (lead :: appendLength content.length ++ content ++ rest) =
      .ok (⟨(lead >>> 6).toNat, (lead &&& 0x1f).toNat, lead &&& 0x20 = 0x20, content.length⟩,
        content ++ rest) := by
  rw [List.cons_append, List.cons_append, List.append_assoc, Asn1.parseTagAndLength,
    Asn1.parseTag, if_neg short]
  simp only [parseLength_appendLength fits]

/-- The identifier octet of a context tag up to 30. -/
theorem contextLead_spec {number : Nat} (small : number ≤ 30) (constructed : Bool) :
    let lead : UInt8 := (if constructed then 0xa0 else 0x80) ||| UInt8.ofNat number
    lead &&& 0x1f ≠ 0x1f ∧ (lead >>> 6).toNat = 2 ∧ (lead &&& 0x1f).toNat = number ∧
      decide (lead &&& 0x20 = 0x20) = constructed := by
  have every : ∀ number < 31, ∀ constructed : Bool,
      let lead : UInt8 := (if constructed then 0xa0 else 0x80) ||| UInt8.ofNat number
      lead &&& 0x1f ≠ 0x1f ∧ (lead >>> 6).toNat = 2 ∧ (lead &&& 0x1f).toNat = number ∧
        decide (lead &&& 0x20 = 0x20) = constructed := by
    decide
  exact every number (Nat.lt_succ_of_le small) constructed

/-- The header of a context-tagged record, in the one-octet and in the long form of the tag. -/
theorem parseTagAndLength_wrapContextTag {tagNum : Int64} (small : tagNum.toInt < 2 ^ 31)
    (constructed : Bool) (fits : content.length < 2 ^ 31) (rest : Octets) :
    Asn1.parseTagAndLength (wrapContextTag tagNum constructed content ++ rest) =
      .ok (⟨2, tagNum.toInt.toNat, constructed, content.length⟩, content ++ rest) := by
  rw [wrapContextTag]
  split
  · rename_i short
    obtain ⟨low, contextClass, number, compound⟩ := contextLead_spec short constructed
    rw [parseTagAndLength_append low fits rest, contextClass, number, compound]
  rename_i long
  have lead : ∀ constructed : Bool,
      let lead : UInt8 := (if constructed then 0xa0 else 0x80) ||| 0x1f
      lead &&& 0x1f = 0x1f ∧ (lead >>> 6).toNat = 2 ∧
        decide (lead &&& 0x20 = 0x20) = constructed := by
    decide
  obtain ⟨low, contextClass, compound⟩ := lead constructed
  have number := parseBase128Int_encodeTagNumber (show 0 < tagNum.toInt.toNat by omega)
    (by omega) (appendLength content.length ++ (content ++ rest))
  simp only [List.cons_append, List.append_assoc, Asn1.parseTagAndLength, Asn1.parseTag, low,
    if_true, number]
  rw [if_neg (by omega)]
  simp only [parseLength_appendLength fits, contextClass, compound]

theorem unmarshalRawValue_wrapContextTag {tagNum : Int64} (small : tagNum.toInt < 2 ^ 31)
    (constructed : Bool) (fits : content.length < 2 ^ 31) (rest : Octets) :
    Asn1.unmarshalRawValue (wrapContextTag tagNum constructed content ++ rest) =
      .ok (⟨2, tagNum.toInt.toNat, constructed, content⟩, rest) := by
  simp only [Asn1.unmarshalRawValue, parseTagAndLength_wrapContextTag small constructed fits rest]
  rw [if_neg (by simp), List.take_left', List.drop_left'] <;> rfl

theorem unmarshalInt64_encodeInt (value : Int64) (rest : Octets) :
    Asn1.unmarshalInt64 (encodeTLV 0x02 (encodeInt value) ++ rest) = .ok (value, rest) := by
  have length := length_encodeInt_le value
  have fits : (encodeInt value).length < 2 ^ 31 := length.trans_lt (by decide)
  have header := parseTagAndLength_append (show (0x02 : UInt8) &&& 0x1f ≠ 0x1f by decide) fits rest
  have minimal := isMinimal_encodeInt value
  have checked : Asn1.checkInteger (encodeInt value) = .ok () := by
    match encodeInt value, minimal with
    | [], minimal => exact (minimal.1 rfl).elim
    | [_], _ => rfl
    | first :: second :: tail, minimal =>
      simp [Asn1.checkInteger, minimal.2 first second tail rfl]
  have parsed : Asn1.parseInt64 (encodeInt value) = .ok value := by
    simp only [Asn1.parseInt64, checked]
    rw [if_neg (Nat.not_lt.mpr length)]
    congr 1
    apply Int64.toInt_inj.mp
    rw [foldSigned_toInt length, twosValue_encodeInt]
  simp only [Asn1.unmarshalInt64, encodeTLV, header]
  rw [if_neg (by decide), if_neg (by simp), List.take_left', List.drop_left', parsed] <;> rfl

end Records

/-! ## The envelope -/

section Envelope

variable {content servicePayload : Octets}

variable {tagNum : Int64}

theorem unwrapPdu_wrapConstructed (small : tagNum.toInt.toNat ≤ 30)
    (fits : content.length < 2 ^ 31) :
    unwrapPdu (wrapConstructed tagNum content) =
      .ok (0xa0 ||| UInt8.ofNat tagNum.toInt.toNat, content) := by
  have raw := unmarshalRawValue_wrapContextTag (show tagNum.toInt < 2 ^ 31 by omega) true fits []
  have every : ∀ number < 31, (UInt8.ofNat (2 % 4) <<< 6 ||| UInt8.ofNat (number % 32)) ||| 0x20 =
      0xa0 ||| UInt8.ofNat number := by
    decide
  rw [List.append_nil] at raw
  simp only [unwrapPdu, wrapConstructed, raw]
  rw [if_neg (by simp), if_neg (Nat.not_lt.mpr small)]
  simp only [if_true, every _ (Nat.lt_succ_of_le small)]

theorem decodePdu_wrapConstructed (small : tagNum.toInt.toNat ≤ 30) {kind : PduKind}
    (known : classifyTag (0xa0 ||| UInt8.ofNat tagNum.toInt.toNat) = .ok kind)
    (fits : content.length < 2 ^ 31) :
    decodePdu (wrapConstructed tagNum content) = .ok (kind, content) := by
  simp only [decodePdu, unwrapPdu_wrapConstructed small fits, known]

/-- The content of a confirmed request or response. -/
def requestContent (invokeID : UInt32) (tagNum : Int64) (constructed : Bool)
    (servicePayload : Octets) : Octets :=
  encodeTLV 0x02 (encodeInt (Int64.ofNat invokeID.toNat)) ++
    wrapContextTag tagNum constructed servicePayload

theorem decodePdu_marshalConfirmedRequest (invokeID : UInt32) (tagNum : Int64)
    (constructed : Bool)
    (fits : (requestContent invokeID tagNum constructed servicePayload).length < 2 ^ 31) :
    decodePdu (marshalConfirmedRequest invokeID tagNum constructed servicePayload) =
      .ok (.confirmedRequest, requestContent invokeID tagNum constructed servicePayload) :=
  decodePdu_wrapConstructed (show (0 : Int64).toInt.toNat ≤ 30 by decide) rfl fits

/-- The server takes the invoke ID and the service element out of a request. -/
theorem unmarshalConfirmedRequest_requestContent (invokeID : UInt32) (small : tagNum.toInt < 2 ^ 31)
    (constructed : Bool) (fits : servicePayload.length < 2 ^ 31) :
    unmarshalConfirmedRequest (requestContent invokeID tagNum constructed servicePayload) =
      .ok (invokeID, ⟨2, tagNum.toInt.toNat, constructed, servicePayload⟩) := by
  have id := toInt_ofNat_uint32 invokeID
  have word := invokeID.toNat_lt
  have raw := unmarshalRawValue_wrapContextTag small constructed fits []
  have inRange : ¬ (Int64.ofNat invokeID.toNat < 0 ∨
      Int64.ofNat invokeID.toNat > 4294967295) := by
    have zero : (0 : Int64).toInt = 0 := by decide
    have most : (4294967295 : Int64).toInt = 4294967295 := by decide
    rw [gt_iff_lt, Int64.lt_iff_toInt_lt, Int64.lt_iff_toInt_lt, id, zero, most]
    omega
  rw [List.append_nil] at raw
  simp only [unmarshalConfirmedRequest, unmarshalConfirmedEnvelope, requestContent,
    unmarshalInt64_encodeInt, raw]
  rw [if_neg inRange, if_neg (by simp), id]
  simp

end Envelope

end GoMms.Codec
