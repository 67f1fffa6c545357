import GoMms.Server.NameList
import GoMms.Serverconn.Negotiation

/-!
# The response budget

`server_pdusize.go` shortens a list until it fits `responseBudget`, the negotiated PDU size less
a constant that is meant to bound the framing of a confirmed response. The framing takes up to
18 octets, two more than the constant; the budget is sound exactly where it takes no more than 16.
-/

namespace GoMms.Server

open Berutil Codec Serverconn

def confirmedResponseOverhead : Int64 := 16

/-- `responseBudget` on a connection with this PDU size. -/
def responseBudget (maxPDU : Int64) : Int64 := maxPDU - confirmedResponseOverhead

section Framing

variable {idLength tagLength : Nat}

/-- The framing around the largest payload within the budget. The inner length takes four octets
from 65536 payload octets on, the outer one already a little before. -/
theorem responseSize_le_iff {payload : Nat} (small : payload < 2 ^ 24 - 16)
    (id : 1 ≤ idLength ∧ idLength ≤ 5) (tag : 1 ≤ tagLength ∧ tagLength ≤ 2) :
    responseSize idLength tagLength payload ≤ payload + 16 ↔
      payload ≤ 65523 ∨ (payload ≤ 65535 ∧ idLength + tagLength ≤ 6) ∨
        idLength + tagLength ≤ 5 := by
  have idSize : tlvSize idLength = idLength + 2 := tlvSize_short (by omega)
  have lengths : ∀ length, length < 2 ^ 24 → lengthSize length ≤ 4 ∧
      (lengthSize length ≤ 3 ↔ length < 65536) ∧ (lengthSize length ≤ 2 ↔ length < 256) := by
    intro length fits
    have four : lengthSize length ≤ 4 ↔ length < 256 ^ 3 := lengthSize_le_iff length (by decide)
    exact ⟨four.mpr (by omega), lengthSize_le_iff length (by decide : 0 < 2),
      lengthSize_le_iff length (by decide : 0 < 1)⟩
  have inner := lengths payload (by omega)
  have outer := lengths (idLength + 2 + (tagLength + lengthSize payload + payload)) (by omega)
  rw [responseSize, idSize, tlvSize]
  omega

/-- The octets of an invoke ID. -/
theorem length_invokeID_le_iff (invokeID : UInt32) (width : Nat) :
    (encodeInt (Int64.ofNat invokeID.toNat)).length ≤ width + 1 ↔
      invokeID.toNat < 128 * 256 ^ width := by
  apply (isMinimal_encodeInt _).length_le_iff
  rw [twosValue_encodeInt, toInt_ofNat_uint32]

/-- The octets of a service tag up to 127. -/
theorem tagSize_eq {tag : Int64} (small : tag.toInt ≤ 127) :
    tagSize tag = if tag.toInt ≤ 30 then 1 else 2 := by
  unfold tagSize
  by_cases short : tag.toInt ≤ 30
  · rw [if_pos (by omega), if_pos short]
  · have zero : tag.toInt.toNat / 128 = 0 := by omega
    rw [if_neg (by omega), if_neg short, encodeTagNumber, zero, continuation, if_pos rfl]
    rfl

end Framing

/-- Where the framing takes at most 16 octets: PDU sizes for which no length needs four octets,
or short enough invoke IDs and tags. -/
def FramingBounded (maxPDU : Int64) (invokeID : UInt32) (tag : Int64) : Prop :=
  maxPDU.toInt ≤ 65539 ∨
    (maxPDU.toInt ≤ 65551 ∧ ¬ (2 ^ 31 ≤ invokeID.toNat ∧ 31 ≤ tag.toInt)) ∨
    (invokeID.toNat < 2 ^ 31 ∧ tag.toInt ≤ 30) ∨ invokeID.toNat < 2 ^ 23

/-- The largest payload within the budget is framed within the PDU size exactly there. -/
theorem responseSize_budget_iff {maxPDU : Int64} (invokeID : UInt32) {tag : Int64}
    (size : 128 ≤ maxPDU.toInt ∧ maxPDU.toInt < 2 ^ 24) (known : tag.toInt ≤ 127) :
    responseSize (encodeInt (Int64.ofNat invokeID.toNat)).length (tagSize tag)
        (maxPDU.toInt.toNat - 16) ≤ maxPDU.toInt.toNat - 16 + 16 ↔
      FramingBounded maxPDU invokeID tag := by
  have nonempty : 1 ≤ (encodeInt (Int64.ofNat invokeID.toNat)).length :=
    List.length_pos_of_ne_nil (isMinimal_encodeInt _).1
  have three := length_invokeID_le_iff invokeID 2
  have four := length_invokeID_le_iff invokeID 3
  have five := length_invokeID_le_iff invokeID 4
  have word := invokeID.toNat_lt
  rw [tagSize_eq known, FramingBounded]
  rw [responseSize_le_iff (by omega) (by omega) (by split <;> omega)]
  split
  · omega
  · omega

theorem toInt_responseBudget {maxPDU : Int64} (size : 128 ≤ maxPDU.toInt) :
    (responseBudget maxPDU).toInt = maxPDU.toInt - 16 := by
  have word := maxPDU.toInt_lt
  have overhead : confirmedResponseOverhead.toInt = 16 := by decide
  rw [responseBudget, Int64.toInt_sub, overhead]
  exact Int.bmod_eq_of_le (by omega) (by omega)

/-- Where the framing is bounded, a payload within the budget gives a response within the PDU
size. -/
theorem length_response_le {maxPDU tag : Int64} {invokeID : UInt32}
    (size : 128 ≤ maxPDU.toInt ∧ maxPDU.toInt < 2 ^ 24) (known : tag.toInt ≤ 127)
    (bounded : FramingBounded maxPDU invokeID tag) (constructed : Bool) {payload : Octets}
    (fits : (payload.length : Int) ≤ (responseBudget maxPDU).toInt) :
    ((marshalConfirmedResponse invokeID tag constructed payload).length : Int) ≤ maxPDU.toInt := by
  have budget := toInt_responseBudget size.1
  have largest := (responseSize_budget_iff invokeID size known).mpr bounded
  have less := responseSize_mono (encodeInt (Int64.ofNat invokeID.toNat)).length (tagSize tag)
    (show payload.length ≤ maxPDU.toInt.toNat - 16 by omega)
  rw [length_marshalConfirmedResponse]
  omega

/-- The budget is sound, and no list shortened to it is thrown away, exactly where the framing is
bounded by its constant. -/
theorem responseBudget_sound_iff {maxPDU tag : Int64} (invokeID : UInt32)
    (size : 128 ≤ maxPDU.toInt ∧ maxPDU.toInt < 2 ^ 24) (known : 0 ≤ tag.toInt ∧ tag.toInt ≤ 127) :
    ((∀ constructed payload, (payload.length : Int) ≤ (responseBudget maxPDU).toInt →
        ((marshalConfirmedResponse invokeID tag constructed payload).length : Int) ≤ maxPDU.toInt) ∧
      ∀ (Error : Type) (encode : Nat → Bool → Except Error Octets) tooLarge n octets constructed,
        fitList (responseBudget maxPDU) encode tooLarge n = .ok octets →
        confirmedReply ⟨maxPDU⟩ invokeID (.response tag constructed octets) =
          marshalConfirmedResponse invokeID tag constructed octets) ↔
      FramingBounded maxPDU invokeID tag := by
  constructor
  · rintro ⟨sound, -⟩
    have budget := toInt_responseBudget size.1
    have largest := sound false (List.replicate (maxPDU.toInt.toNat - 16) 0)
      (by rw [List.length_replicate]; omega)
    rw [length_marshalConfirmedResponse, List.length_replicate] at largest
    exact (responseSize_budget_iff invokeID size known.2).mp (by omega)
  · intro bounded
    have sound := fun constructed payload => @length_response_le maxPDU tag invokeID size known.2
      bounded constructed payload
    refine ⟨sound, fun Error encode tooLarge n octets constructed done => ?_⟩
    have fits := sound constructed octets (fitList_ok done).1
    have kept : MMSOptions.exceededBy ⟨maxPDU⟩
        (marshalConfirmedResponse invokeID tag constructed octets) = false :=
      (exceededBy_eq_false_iff (show 0 < maxPDU.toInt by omega)).mpr fits
    simp only [confirmedReply, kept, Bool.false_eq_true, if_false]

theorem responseBudget_sound_default :
    FramingBounded 65000 0xffffffff 77 ∧
      ∀ constructed payload, (payload.length : Int) ≤ (responseBudget 65000).toInt →
        ((marshalConfirmedResponse 0xffffffff 77 constructed payload).length : Int) ≤ 65000 := by
  have bounded : FramingBounded 65000 0xffffffff 77 := .inl (by decide)
  exact ⟨bounded, ((responseBudget_sound_iff 0xffffffff (by decide) (by decide)).mpr bounded).1⟩

/-- A file directory of 65524 octets is within the budget of PDU size 65540. Framed for an invoke
ID from `2 ^ 31` on it takes 65541 octets, and the client gets an error instead. -/
theorem responseBudget_unsound :
    let directory : Octets := List.replicate 65524 0
    (directory.length : Int) ≤ (responseBudget 65540).toInt ∧
      (marshalConfirmedResponse 0x80000000 77 true directory).length = 65541 ∧
      confirmedReply ⟨65540⟩ 0x80000000 (.response 77 true directory) =
        marshalConfirmedError 0x80000000 3 0 := by
  intro directory
  have id : (encodeInt (Int64.ofNat (0x80000000 : UInt32).toNat)).length = 5 := by decide +kernel
  have framed : (marshalConfirmedResponse 0x80000000 77 true directory).length = 65541 := by
    rw [length_marshalConfirmedResponse, List.length_replicate, id, tagSize_eq (by decide)]
    simp [responseSize, tlvSize, lengthSize, octetCount]
  refine ⟨?_, framed, ?_⟩
  · rw [List.length_replicate, toInt_responseBudget (by decide)]
    decide
  · have oversize : MMSOptions.exceededBy ⟨65540⟩
        (marshalConfirmedResponse 0x80000000 77 true directory) = true := by
      rw [MMSOptions.exceededBy, framed]
      decide
    rw [confirmedReply]
    simp only [oversize, if_true]

end GoMms.Server
