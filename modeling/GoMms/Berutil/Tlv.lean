import GoMms.Foundation.OffsetLoop
import GoMms.Foundation.Octets

/-!
# Tag-length-value records

The record primitives of `internal/berutil`: minimal definite lengths on the way out, the
one-octet form and the long form with up to three octets on the way in.
-/

namespace GoMms.Berutil

open Octets

/-- One lower-case hexadecimal digit. -/
def hexDigit (digit : Nat) : Char :=
  ("0123456789abcdef".toList[digit]?).getD '0'

/-- `fmt`'s `%02x` for one octet. -/
def hex02 (octet : UInt8) : String :=
  String.ofList [hexDigit (octet.toNat / 16), hexDigit (octet.toNat % 16)]

/-- The loop `for v := u; v > 0; v >>= 8 { n++ }`. -/
def octetCount (value : Nat) : Nat :=
  if value = 0 then 0 else octetCount (value / 256) + 1

/-- `AppendLength`, without the buffer it appends to. Lengths are never negative here. -/
def appendLength (length : Nat) : Octets :=
  if length < 0x80 then [UInt8.ofNat length]
  else
    let count := octetCount length
    (0x80 ||| UInt8.ofNat count) :: beOctets count length

def lengthSize (length : Nat) : Nat :=
  if length < 0x80 then 1 else octetCount length + 1

def tlvSize (contentLen : Nat) : Nat :=
  1 + lengthSize contentLen + contentLen

def encodeTLV (tag : UInt8) (content : Octets) : Octets :=
  tag :: appendLength content.length ++ content

/-- A decoded record and the number of octets it occupied. -/
structure Tlv where
  tag : UInt8
  content : Octets
  consumed : Nat
  deriving DecidableEq, Repr

/-- `DecodeLength`: the length and the size of the length field. -/
def decodeLength : Octets → Except String (Nat × Nat)
  | [] => .error "missing length byte"
  | lead :: rest =>
    if lead.toNat < 128 then .ok (lead.toNat, 1)
    else
      let numBytes := (lead &&& 0x7f).toNat
      if numBytes = 0 ∨ numBytes > 3 then .error ("unsupported length form 0x" ++ hex02 lead)
      else if rest.length < numBytes then .error "truncated multi-byte length"
      else .ok (beNat (rest.take numBytes), 1 + numBytes)

def decodeTLVAt (data : Octets) (offset : Nat) : Except String Tlv :=
  match data[offset]? with
  | none => .error ("offset " ++ toString offset ++ " beyond data length " ++ toString data.length)
  | some tag =>
    match decodeLength (data.drop (offset + 1)) with
    | .error text => .error ("tag 0x" ++ hex02 tag ++ " length: " ++ text)
    | .ok (length, lSize) =>
      let start := offset + 1 + lSize
      let stop := start + length
      if data.length < stop then
        .error ("tag 0x" ++ hex02 tag ++ " content truncated (need " ++ toString length ++
          ", have " ++ toString ((data.length : Int) - start) ++ ")")
      else .ok ⟨tag, (data.drop start).take length, stop - offset⟩

/-- `DecodeTLV`: the record at the start of the data, whatever follows it. -/
def decodeTLV (data : Octets) : Except String (UInt8 × Octets) :=
  match decodeTLVAt data 0 with
  | .error text => .error text
  | .ok tlv => .ok (tlv.tag, tlv.content)

/-- `DecodeTLVExact`: the record that fills the data. -/
def decodeTLVExact (data : Octets) : Except String (UInt8 × Octets) :=
  match decodeTLVAt data 0 with
  | .error text => .error text
  | .ok tlv =>
    if tlv.consumed ≠ data.length then
      .error ("berutil: " ++ toString (data.length - tlv.consumed) ++ " trailing bytes after TLV")
    else .ok (tlv.tag, tlv.content)

/-! ## Sizes -/

variable {value width short long : Nat} {data : Octets}

theorem octetCount_pos (positive : 0 < value) : 0 < octetCount value := by
  rw [octetCount, if_neg (Nat.ne_of_gt positive)]
  omega

theorem lt_pow_octetCount (value : Nat) : value < 256 ^ octetCount value := by
  fun_induction octetCount value with
  | case1 => simp
  | case2 value positive ih =>
    rw [pow_succ]
    omega

/-- `octetCount` is the least number of octets that hold the value. -/
theorem octetCount_le (fits : value < 256 ^ width) : octetCount value ≤ width := by
  induction width generalizing value with
  | zero =>
    have zero : value = 0 := by simpa using fits
    simp [zero, octetCount]
  | succ width ih =>
    rw [octetCount]
    split
    · omega
    · have quotient : value / 256 < 256 ^ width := by
        rw [pow_succ] at fits
        omega
      have smaller := ih quotient
      omega

@[simp] theorem length_appendLength (length : Nat) :
    (appendLength length).length = lengthSize length := by
  unfold appendLength lengthSize
  split <;> simp

@[simp] theorem length_encodeTLV (tag : UInt8) (content : Octets) :
    (encodeTLV tag content).length = tlvSize content.length := by
  simp [encodeTLV, tlvSize]
  omega

theorem lengthSize_pos (length : Nat) : 0 < lengthSize length := by
  unfold lengthSize
  split <;> omega

theorem lengthSize_mono (le : short ≤ long) : lengthSize short ≤ lengthSize long := by
  unfold lengthSize
  split <;> split
  · exact Nat.le_refl _
  · omega
  · omega
  · have fits := lt_pow_octetCount long
    have count := octetCount_le (Nat.lt_of_le_of_lt le fits)
    omega

/-- The long form with `width` octets carries the lengths below `256 ^ width`. -/
theorem lengthSize_le_iff (length : Nat) (positive : 0 < width) :
    lengthSize length ≤ width + 1 ↔ length < 256 ^ width := by
  have octet : 256 ^ 1 ≤ 256 ^ width := Nat.pow_le_pow_right (by decide) positive
  unfold lengthSize
  split
  · omega
  · rw [Nat.add_le_add_iff_right]
    constructor
    · intro few
      exact (lt_pow_octetCount length).trans_le (Nat.pow_le_pow_right (by decide) few)
    · exact octetCount_le

theorem tlvSize_mono (le : short ≤ long) : tlvSize short ≤ tlvSize long := by
  have header := lengthSize_mono le
  unfold tlvSize
  omega

theorem two_le_tlvSize (contentLen : Nat) : 2 ≤ tlvSize contentLen := by
  have header := lengthSize_pos contentLen
  unfold tlvSize
  omega

theorem length_le_encodeTLV (tag : UInt8) (content : Octets) :
    content.length ≤ (encodeTLV tag content).length := by
  rw [length_encodeTLV, tlvSize]
  omega

theorem tlvSize_le {contentLen : Nat} (machine : contentLen < 256 ^ 8) :
    tlvSize contentLen ≤ contentLen + 10 := by
  have count := octetCount_le machine
  unfold tlvSize lengthSize
  split <;> omega

variable {length : Nat} {content : Octets}

theorem tlvSize_short (short : length < 128) : tlvSize length = length + 2 := by
  rw [tlvSize, lengthSize, if_pos short]
  omega

theorem length_encodeTLV_short (tag : UInt8) (short : content.length < 128) :
    (encodeTLV tag content).length = content.length + 2 := by
  rw [length_encodeTLV, tlvSize_short short]

theorem length_encodeTLV_le (tag : UInt8) (machine : content.length < 256 ^ 8) :
    (encodeTLV tag content).length ≤ content.length + 10 := by
  rw [length_encodeTLV]
  exact tlvSize_le machine

theorem encodeTLV_eq_cons (tag : UInt8) (content : Octets) :
    ∃ lead rest, encodeTLV tag content = tag :: lead :: rest := by
  cases header : appendLength content.length with
  | nil =>
    have size := length_appendLength content.length
    have positive := lengthSize_pos content.length
    rw [header, List.length_nil] at size
    omega
  | cons lead rest => exact ⟨lead, rest ++ content, by rw [encodeTLV, header]; rfl⟩

/-! ## Reading back what was written -/

/-- The content lengths the decoder's three length octets can carry. -/
def maxContent : Nat := 2 ^ 24

/-- The lead octet of a long form announces the number of octets. -/
private theorem lead_octet {count : Nat} (machine : count ≤ 8) :
    ¬(0x80 ||| UInt8.ofNat count : UInt8).toNat < 128 ∧
      ((0x80 ||| UInt8.ofNat count) &&& 0x7f : UInt8).toNat = count := by
  have table : ∀ index : Fin 9, ¬(0x80 ||| UInt8.ofNat index.val : UInt8).toNat < 128 ∧
      ((0x80 ||| UInt8.ofNat index.val) &&& 0x7f : UInt8).toNat = index.val := by decide
  exact table ⟨count, Nat.lt_succ_of_le machine⟩

theorem decodeLength_appendLength (fits : length < maxContent) (rest : Octets) :
    decodeLength (appendLength length ++ rest) = .ok (length, lengthSize length) := by
  unfold appendLength lengthSize
  by_cases short : length < 0x80
  · have value : (UInt8.ofNat length).toNat = length := by
      rw [UInt8.toNat_ofNat']
      omega
    simp only [short, ↓reduceIte, List.cons_append, List.nil_append, decodeLength, value]
  · have positive := octetCount_pos (show 0 < length by omega)
    have small : octetCount length ≤ 3 := octetCount_le (by simpa [maxContent] using fits)
    obtain ⟨long, count⟩ := lead_octet (small.trans (by decide))
    have whole : length = beNat (beOctets (octetCount length) length) :=
      (beNat_beOctets_of_lt (lt_pow_octetCount length)).symm
    simp only [short, ↓reduceIte, List.cons_append, decodeLength, long, count]
    rw [if_neg (by omega), if_neg (by simp)]
    simp only [List.take_append_of_le_length (Nat.le_of_eq (length_beOctets _ _).symm)]
    rw [List.take_of_length_le (Nat.le_of_eq (length_beOctets _ _)), ← whole, Nat.add_comm]

/-- A record written in a buffer: its tag, and what stands behind it. -/
theorem encodeTLV_parts (tag : UInt8) (content front rest : Octets) :
    (front ++ encodeTLV tag content ++ rest)[front.length]? = some tag ∧
      (front ++ encodeTLV tag content ++ rest).drop (front.length + 1) =
        appendLength content.length ++ (content ++ rest) := by
  refine ⟨by simp [encodeTLV], ?_⟩
  rw [List.append_assoc, List.drop_append]
  simp [encodeTLV]

/-- A record written anywhere in a buffer is read back there. -/
theorem decodeTLVAt_encodeTLV (tag : UInt8) (fits : content.length < maxContent)
    (front rest : Octets) :
    decodeTLVAt (front ++ encodeTLV tag content ++ rest) front.length =
      .ok ⟨tag, content, tlvSize content.length⟩ := by
  obtain ⟨here, after⟩ := encodeTLV_parts tag content front rest
  have body : (front ++ encodeTLV tag content ++ rest).drop
      (front.length + 1 + lengthSize content.length) = content ++ rest := by
    rw [← List.drop_drop, after, List.drop_append_of_le_length (by simp)]
    simp
  have total : (front ++ encodeTLV tag content ++ rest).length =
      front.length + tlvSize content.length + rest.length := by
    simp [Nat.add_assoc]
  unfold decodeTLVAt
  simp only [here, after, decodeLength_appendLength fits]
  rw [if_neg (by rw [total]; unfold tlvSize; omega), body]
  simp only [List.take_left', Except.ok.injEq, Tlv.mk.injEq, true_and]
  unfold tlvSize
  omega

/-- The fields one after another. -/
def encodeFields (fields : List (UInt8 × Octets)) : Octets :=
  fields.flatMap fun field => encodeTLV field.1 field.2

@[simp] theorem encodeFields_nil : encodeFields [] = [] := rfl

@[simp] theorem encodeFields_cons (field : UInt8 × Octets) (fields : List (UInt8 × Octets)) :
    encodeFields (field :: fields) = encodeTLV field.1 field.2 ++ encodeFields fields :=
  List.flatMap_cons

/-- Records that fit together fit one by one. -/
theorem length_lt_of_records {records : List (UInt8 × Octets)} {limit : Nat}
    (fits : (encodeFields records).length < limit) :
    ∀ record ∈ records, record.2.length < limit := by
  intro record member
  have own := length_le_encodeTLV record.1 record.2
  have whole := length_le_flatMap member fun record => encodeTLV record.1 record.2
  exact (own.trans whole).trans_lt fits

section Records

variable {State : Type*} (step : State → UInt8 × Octets → State)
  (body : Octets → State → Nat → Except String (LoopStep State))
  (ready : State → List (UInt8 × Octets) → Prop)
  (pass : ∀ data offset state record rest, ready state (record :: rest) →
    decodeTLVAt data offset = .ok ⟨record.1, record.2, tlvSize record.2.length⟩ →
    body data state offset = .ok (.next (step state record) (offset + tlvSize record.2.length)) ∧
      ready (step state record) rest)
  {records : List (UInt8 × Octets)} (fits : ∀ record ∈ records, record.2.length < maxContent)

include pass fits

/-- A loop that takes one record in each pass folds over the records at the front of its data. -/
theorem offsetLoop_records_before (tail : Octets) (state : State) (start : ready state records) :
    let data := encodeFields records ++ tail
    offsetLoop data.length (body data) state 0 =
      offsetLoop data.length (body data) (records.foldl step state)
        (encodeFields records).length := by
  have loop := offsetLoop_items_before (fun record => encodeTLV record.1 record.2) step body
    (fun state items => ready state items ∧ ∀ record ∈ items, record.2.length < maxContent) tail
    (fun front record rest state ⟨holds, small⟩ => ?_) records [] state ⟨start, fits⟩
  · simpa [encodeFields] using loop
  · obtain ⟨first, others⟩ := List.forall_mem_cons.mp small
    obtain ⟨stepped, later⟩ := pass _ _ state record rest holds
      (decodeTLVAt_encodeTLV record.1 first front
        (encodeFields rest ++ tail))
    refine ⟨?_, ?_, later, others⟩
    · rw [length_encodeTLV]
      exact stepped
    · simp [encodeTLV]

/-- A loop that takes one record in each pass folds over the records written in its data. -/
theorem offsetLoop_records (state : State) (start : ready state records) :
    offsetLoop (encodeFields records).length (body (encodeFields records)) state 0 =
      .ok (records.foldl step state, (encodeFields records).length) := by
  have loop := offsetLoop_records_before step body ready pass fits [] state start
  simp only [List.append_nil] at loop
  rw [loop, offsetLoop_done (le_refl _)]

end Records

/-- A record at the front of the data is read back. -/
theorem decodeTLVAt_first (tag : UInt8) (fits : content.length < maxContent) (rest : Octets) :
    decodeTLVAt (encodeTLV tag content ++ rest) 0 = .ok ⟨tag, content, tlvSize content.length⟩ :=
  decodeTLVAt_encodeTLV tag fits [] rest

/-- A single record is read back. -/
theorem decodeTLVAt_alone (tag : UInt8) (fits : content.length < maxContent) :
    decodeTLVAt (encodeTLV tag content) 0 = .ok ⟨tag, content, tlvSize content.length⟩ := by
  simpa using decodeTLVAt_first tag fits []

theorem decodeTLV_encodeTLV (tag : UInt8) (fits : content.length < maxContent) :
    decodeTLV (encodeTLV tag content) = .ok (tag, content) := by
  rw [decodeTLV, decodeTLVAt_alone tag fits]

theorem decodeTLVExact_encodeTLV (tag : UInt8) (fits : content.length < maxContent) :
    decodeTLVExact (encodeTLV tag content) = .ok (tag, content) := by
  simp only [decodeTLVExact, decodeTLVAt_alone tag fits, length_encodeTLV, ne_eq,
    not_true_eq_false, if_false]

/-- A length of machine size that needs more than three octets is refused. -/
theorem decodeLength_appendLength_long (long : maxContent ≤ length) (machine : length < 256 ^ 8)
    (rest : Octets) : ∃ text, decodeLength (appendLength length ++ rest) = .error text := by
  have above : 3 < octetCount length := by
    by_contra small
    have bound := lt_pow_octetCount length
    have power : 256 ^ octetCount length ≤ 256 ^ 3 :=
      Nat.pow_le_pow_right (by decide) (Nat.not_lt.mp small)
    have limit : maxContent = 256 ^ 3 := by decide
    omega
  obtain ⟨lead, count⟩ := lead_octet (octetCount_le machine)
  have wide : ¬length < 0x80 := by
    unfold maxContent at long
    omega
  simp only [appendLength, wide, ↓reduceIte, List.cons_append, decodeLength, lead, count]
  rw [if_pos (by omega)]
  exact ⟨_, rfl⟩

/-- A record whose contents are too long for the decoder is refused wherever it is written. -/
theorem decodeTLVAt_encodeTLV_long (tag : UInt8) (long : maxContent ≤ content.length)
    (machine : content.length < 256 ^ 8) (front rest : Octets) :
    ∃ text, decodeTLVAt (front ++ encodeTLV tag content ++ rest) front.length = .error text := by
  obtain ⟨here, after⟩ := encodeTLV_parts tag content front rest
  obtain ⟨text, refused⟩ := decodeLength_appendLength_long long machine (content ++ rest)
  simp only [decodeTLVAt, here, after, refused]
  exact ⟨_, rfl⟩

theorem decodeTLVExact_encodeTLV_long (tag : UInt8) (long : maxContent ≤ content.length)
    (machine : content.length < 256 ^ 8) :
    ∃ text, decodeTLVExact (encodeTLV tag content) = .error text := by
  obtain ⟨text, refused⟩ := decodeTLVAt_encodeTLV_long tag long machine [] []
  simp only [List.nil_append, List.append_nil, List.length_nil] at refused
  simp only [decodeTLVExact, refused]
  exact ⟨_, rfl⟩

/-! ## What an accepted record looks like -/

theorem decodeLength_ok {size : Nat} (ok : decodeLength data = .ok (length, size)) :
    1 ≤ size ∧ length < maxContent ∧ lengthSize length ≤ size := by
  cases data with
  | nil => simp [decodeLength] at ok
  | cons lead rest =>
    simp only [decodeLength] at ok
    split at ok
    · rename_i short
      simp only [Except.ok.injEq, Prod.mk.injEq] at ok
      obtain ⟨rfl, rfl⟩ := ok
      simp only [maxContent, lengthSize, if_pos short]
      omega
    · split at ok
      · simp at ok
      rename_i count
      split at ok
      · simp at ok
      rename_i enough
      simp only [Except.ok.injEq, Prod.mk.injEq] at ok
      obtain ⟨rfl, rfl⟩ := ok
      set numBytes := (lead &&& 0x7f).toNat
      have taken : (rest.take numBytes).length = numBytes := by
        rw [List.length_take]
        omega
      have bound : beNat (rest.take numBytes) < 256 ^ numBytes := by
        simpa only [taken] using beNat_lt (rest.take numBytes)
      have power : 256 ^ numBytes ≤ 256 ^ 3 := Nat.pow_le_pow_right (by decide) (by omega)
      refine ⟨by omega, ?_, ?_⟩
      · exact Nat.lt_of_lt_of_le bound (power.trans (by decide))
      · have octets := octetCount_le bound
        unfold lengthSize
        split <;> omega

/-- An accepted record lies inside the buffer, its content fills the end of the octets it
occupies, and its header is at least as long as the minimal one. -/
theorem decodeTLVAt_ok {offset : Nat} {tlv : Tlv} (ok : decodeTLVAt data offset = .ok tlv) :
    offset + tlv.consumed ≤ data.length ∧ tlv.content.length < maxContent ∧
      tlvSize tlv.content.length ≤ tlv.consumed ∧
      tlv.content = (data.drop (offset + tlv.consumed - tlv.content.length)).take
        tlv.content.length := by
  unfold decodeTLVAt at ok
  split at ok
  · simp at ok
  · split at ok
    · simp at ok
    rename_i tag _ length lSize header
    obtain ⟨sizePos, bound, minimal⟩ := decodeLength_ok header
    dsimp only at ok
    split at ok
    · simp at ok
    rename_i inside
    simp only [Except.ok.injEq] at ok
    subst ok
    have contentLength :
        ((data.drop (offset + 1 + lSize)).take length).length = length := by
      rw [List.length_take, List.length_drop]
      omega
    simp only [contentLength]
    refine ⟨by omega, bound, by unfold tlvSize; omega, ?_⟩
    congr 2
    omega

/-! ## Definite lengths -/

/-- The length that octets denote in a definite form of X.690: one octet below 128, or a number
of octets behind an octet that announces how many. -/
def definiteLength : Octets → Option Nat
  | [] => none
  | lead :: rest =>
    if lead.toNat < 128 then if rest = [] then some lead.toNat else none
    else if (lead &&& 0x7f).toNat = rest.length ∧ rest ≠ [] ∧ lead ≠ 0xff then some (beNat rest)
    else none

theorem definiteLength_appendLength (machine : length < 2 ^ 63) :
    definiteLength (appendLength length) = some length := by
  have whole := beNat_beOctets_of_lt (lt_pow_octetCount length)
  unfold appendLength
  split
  · rename_i short
    have value : (UInt8.ofNat length).toNat = length := by
      rw [UInt8.toNat_ofNat']
      omega
    simp only [definiteLength, value, short, if_true]
  rename_i long
  have positive := octetCount_pos (show 0 < length by omega)
  have few : octetCount length ≤ 8 := octetCount_le (machine.trans (by decide))
  obtain ⟨lead, count⟩ := lead_octet few
  have other : (0x80 ||| UInt8.ofNat (octetCount length) : UInt8) ≠ 0xff := by
    intro same
    rw [same] at count
    have most : (0xff &&& 0x7f : UInt8).toNat = 127 := rfl
    omega
  have filled : beOctets (octetCount length) length ≠ [] :=
    List.ne_nil_of_length_pos (by rwa [length_beOctets])
  simp only [definiteLength, lead, if_false, count, length_beOctets, whole]
  exact if_pos ⟨trivial, filled, other⟩

theorem lengthSize_le_of_definiteLength {octets : Octets}
    (denotes : definiteLength octets = some length) : lengthSize length ≤ octets.length := by
  cases octets with
  | nil => cases denotes
  | cons lead rest =>
    rw [definiteLength] at denotes
    split_ifs at denotes with short alone form
    · cases denotes
      simp [lengthSize, short]
    · cases denotes
      have octets := octetCount_le (beNat_lt rest)
      rw [List.length_cons]
      unfold lengthSize
      split <;> omega

/-- A record has the size that `TLVSize` computes and the shortest definite length. It is read
back wherever it stands, or refused if its contents are too long for the decoder. Whatever the
decoder accepts lies inside of the data, and its content ends the octets that it takes. -/
theorem tlv_inverse_and_progress (tag : UInt8) (content front rest : Octets)
    (machine : content.length < 2 ^ 63) :
    (encodeTLV tag content).length = tlvSize content.length ∧
    (∃ header, encodeTLV tag content = tag :: header ++ content ∧
      definiteLength header = some content.length ∧
      ∀ other, definiteLength other = some content.length → header.length ≤ other.length) ∧
    (content.length < 2 ^ 24 → decodeTLVAt (front ++ encodeTLV tag content ++ rest) front.length =
      .ok ⟨tag, content, tlvSize content.length⟩) ∧
    (2 ^ 24 ≤ content.length →
      ∃ text, decodeTLVAt (front ++ encodeTLV tag content ++ rest) front.length = .error text) ∧
    ∀ data offset tlv, decodeTLVAt data offset = .ok tlv →
      2 ≤ tlv.consumed ∧ offset + tlv.consumed ≤ data.length ∧
        tlv.content <:+ (data.drop offset).take tlv.consumed := by
  refine ⟨length_encodeTLV tag content,
    ⟨appendLength content.length, rfl, definiteLength_appendLength machine, ?_⟩,
    fun fits => decodeTLVAt_encodeTLV tag fits front rest,
    fun long => decodeTLVAt_encodeTLV_long tag long (machine.trans (by decide)) front rest, ?_⟩
  · intro other denotes
    rw [length_appendLength]
    exact lengthSize_le_of_definiteLength denotes
  · intro data offset tlv ok
    obtain ⟨inside, -, size, ends⟩ := decodeTLVAt_ok ok
    have short : tlv.content.length ≤ tlv.consumed := by
      unfold tlvSize at size
      omega
    refine ⟨(two_le_tlvSize _).trans size, inside, ?_⟩
    have parts : (data.drop offset).take tlv.consumed =
        (data.drop offset).take (tlv.consumed - tlv.content.length) ++ tlv.content := by
      have sum : tlv.consumed = tlv.consumed - tlv.content.length + tlv.content.length := by omega
      conv_lhs => rw [sum, List.take_add, List.drop_drop]
      rw [show offset + (tlv.consumed - tlv.content.length) =
        offset + tlv.consumed - tlv.content.length by omega, ← ends]
    exact ⟨_, parts.symm⟩

theorem tlv_inverse_and_progress_threeOctets :
    [(0x61 : UInt8), 0x62, 0x63].length < 2 ^ 63 ∧
      decodeTLVAt ([0x00] ++ encodeTLV 0x1a [0x61, 0x62, 0x63] ++ [0xff]) 1 =
        .ok ⟨0x1a, [0x61, 0x62, 0x63], 5⟩ :=
  ⟨by decide, (tlv_inverse_and_progress 0x1a [0x61, 0x62, 0x63] [0x00] [0xff] (by decide)).2.2.1
    (by decide)⟩

end GoMms.Berutil
