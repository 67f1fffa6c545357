import GoMms.Berutil.Fields
import GoMms.Pdu.ObjectName

/-!
# The GetNameList response

`MarshalGetNameListResponse` and `UnmarshalGetNameListResponse`: a list of identifiers and a flag
that is sent only when it is false. Whatever the client accepts of a response that the server
wrote is what the server wrote.
-/

namespace GoMms.Pdu

open Berutil

def maxIdentifiers : Nat := 100000
def maxIdentifierLen : Nat := 1024

structure GetNameListResult where
  names : List Octets
  moreFollows : Bool
  deriving DecidableEq, Repr

/-! ## The server's side -/

/-- The identifiers of a response one after another. -/
def encodeIdentifiers : List Octets → Octets
  | [] => []
  | name :: names => encodeTLV tagVisibleString name ++ encodeIdentifiers names

/-- `MarshalGetNameListResponse`, which returns no error. -/
def marshalGetNameListResponse (names : List Octets) (moreFollows : Bool) : Octets :=
  encodeTLV 0xa0 (encodeIdentifiers names) ++ if !moreFollows then encodeTLV 0x81 [0x00] else []

/-! ## The client's side -/

/-- One pass of the loop of `decodeIdentifierList`. -/
def identifierPass (data : Octets) (names : List Octets) (offset : Nat) :
    Except String (LoopStep (List Octets)) :=
  match decodeTLVAt data offset with
  | .error text => .error ("identifier [" ++ toString names.length ++ "]: " ++ text)
  | .ok tlv =>
    if tlv.tag ≠ tagVisibleString then
      .error ("identifier [" ++ toString names.length ++
        "]: expected VisibleString (0x1a), got 0x" ++ hex02 tlv.tag)
    else if maxIdentifierLen < tlv.content.length then
      .error ("pdu: identifier length " ++ toString tlv.content.length ++ " exceeds maximum " ++
        toString maxIdentifierLen)
    else
      let names := names ++ [tlv.content]
      if maxIdentifiers < names.length then
        .error ("pdu: identifier count " ++ toString names.length ++ " exceeds maximum " ++
          toString maxIdentifiers)
      else .ok (.next names (offset + tlv.consumed))

def decodeIdentifierList (data : Octets) : Except String (List Octets) :=
  match offsetLoop data.length (identifierPass data) [] 0 with
  | .error text => .error text
  | .ok (names, _) => .ok names

/-- The flag of a response from `offset` on, and the offset after it; true when it is absent. -/
def decodeMoreFollows (content : Octets) (offset : Nat) : Except String (Bool × Nat) :=
  if offset < content.length then
    match decodeTLVAt content offset with
    | .error text => .error ("pdu: getnamelist response: moreFollows: " ++ text)
    | .ok tlv =>
      if tlv.tag ≠ 0x81 then
        .error ("pdu: getnamelist response: expected [1] BOOLEAN (0x81), got 0x" ++ hex02 tlv.tag)
      else
        match tlv.content with
        | [flag] => .ok (flag != 0, offset + tlv.consumed)
        | _ => .ok (true, offset + tlv.consumed)
  else .ok (true, offset)

def unmarshalGetNameListResponse (content : Octets) : Except String GetNameListResult :=
  if content.length = 0 then .error "pdu: getnamelist response: empty content"
  else
    match decodeTLVAt content 0 with
    | .error text => .error ("pdu: getnamelist response: list: " ++ text)
    | .ok list =>
      if list.tag ≠ 0xa0 then
        .error ("pdu: getnamelist response: expected [0] SEQUENCE OF (0xa0), got 0x" ++
          hex02 list.tag)
      else
        match decodeIdentifierList list.content with
        | .error text => .error ("pdu: getnamelist response: " ++ text)
        | .ok names =>
          match decodeMoreFollows content list.consumed with
          | .error text => .error text
          | .ok (moreFollows, offset) =>
            if offset ≠ content.length then
              .error ("pdu: getnamelist response: " ++
                toString ((content.length : Int) - offset) ++ " trailing bytes")
            else .ok ⟨names, moreFollows⟩

/-! ## What the client accepts -/

variable {names : List Octets}

/-- A pass that goes on stores the content of a record. -/
theorem identifierPass_ok {data : Octets} {offset : Nat} {step : LoopStep (List Octets)}
    (pass : identifierPass data names offset = .ok step) :
    fieldPass (fun _ => "") (fun names _ content => pure (names ++ [content])) data names offset =
      .ok step := by
  cases read : decodeTLVAt data offset with
  | error text => simp [identifierPass, read] at pass
  | ok tlv =>
    simp only [identifierPass, read] at pass
    split_ifs at pass
    rw [fieldPass, read]
    exact pass

theorem encodeIdentifiers_eq (names : List Octets) :
    encodeIdentifiers names = encodeFields (names.map (Prod.mk tagVisibleString)) := by
  induction names with
  | nil => rfl
  | cons name names ih => rw [encodeIdentifiers, ih, List.map_cons, encodeFields_cons]

/-- Only the written identifiers can be read. -/
theorem decodeIdentifierList_encode {decoded : List Octets}
    (short : ∀ name ∈ names, name.length ≤ maxIdentifierLen)
    (done : decodeIdentifierList (encodeIdentifiers names) = .ok decoded) : decoded = names := by
  unfold decodeIdentifierList at done
  split at done
  · cases done
  rename_i looped
  obtain rfl := Except.ok.inj done
  have fits : ∀ field ∈ names.map (Prod.mk tagVisibleString), field.2.length < maxContent := by
    rw [List.forall_mem_map]
    exact fun name member => (short name member).trans_lt (by decide)
  have stored := offsetLoop_fieldPass (fun _ => "")
    (fun names _ content => pure (names ++ [content])) fits [] []
  rw [encodeIdentifiers_eq] at looped
  have collected := (offsetLoop_mono _ (fun _ _ _ => identifierPass_ok) looped).symm.trans stored
  rw [List.foldlM_map, List.foldlM_pure, List.foldl_append_eq_append, ← List.flatMap_def,
    List.flatMap_singleton'] at collected
  exact (Prod.mk.inj (Except.ok.inj collected)).1

/-- The flag that follows a written list is the one that was written. -/
theorem decodeMoreFollows_marshal (list : Octets) (moreFollows : Bool) :
    decodeMoreFollows (list ++ if !moreFollows then encodeTLV 0x81 [0x00] else []) list.length =
      .ok (moreFollows, (list ++ if !moreFollows then encodeTLV 0x81 [0x00] else []).length) := by
  cases moreFollows with
  | true => simp [decodeMoreFollows]
  | false =>
    have read := decodeTLVAt_encodeTLV 0x81 (show [0x00].length < maxContent by decide) list []
    simp only [List.append_nil] at read
    have below : list.length < list.length + tlvSize [(0x00 : UInt8)].length :=
      Nat.lt_add_of_pos_right (by decide)
    simp only [decodeMoreFollows, Bool.not_false, if_true, read, ne_eq, not_true_eq_false,
      if_false, List.length_append, length_encodeTLV, below]
    rfl

/-- A response of machine size that the client accepts carries the names and the flag that the
server wrote. -/
theorem unmarshal_marshalGetNameListResponse {moreFollows : Bool} {result : GetNameListResult}
    (short : ∀ name ∈ names, name.length ≤ maxIdentifierLen)
    (machine : (marshalGetNameListResponse names moreFollows).length < 256 ^ 8)
    (done : unmarshalGetNameListResponse (marshalGetNameListResponse names moreFollows) =
      .ok result) : result = ⟨names, moreFollows⟩ := by
  set list := encodeTLV 0xa0 (encodeIdentifiers names) with written
  have inside : (encodeIdentifiers names).length < 256 ^ 8 := by
    have whole := length_le_encodeTLV 0xa0 (encodeIdentifiers names)
    simp only [marshalGetNameListResponse, List.length_append] at machine
    omega
  have nonempty : (marshalGetNameListResponse names moreFollows).length ≠ 0 := by
    have positive := two_le_tlvSize (encodeIdentifiers names).length
    simp only [marshalGetNameListResponse, List.length_append, length_encodeTLV]
    omega
  by_cases long : maxContent ≤ (encodeIdentifiers names).length
  · -- the list does not get through the decoder
    obtain ⟨text, refused⟩ := decodeTLVAt_encodeTLV_long 0xa0 long inside []
      (if !moreFollows then encodeTLV 0x81 [0x00] else [])
    simp only [List.nil_append, List.length_nil] at refused
    simp only [unmarshalGetNameListResponse, nonempty, if_false] at done
    rw [marshalGetNameListResponse, refused] at done
    cases done
  · have read := decodeTLVAt_encodeTLV 0xa0 (Nat.not_le.mp long) []
      (if !moreFollows then encodeTLV 0x81 [0x00] else [])
    simp only [List.nil_append, List.length_nil] at read
    have flag := decodeMoreFollows_marshal list moreFollows
    rw [written, length_encodeTLV] at flag
    simp only [unmarshalGetNameListResponse, nonempty, if_false] at done
    rw [marshalGetNameListResponse, read] at done
    simp only [ne_eq, not_true_eq_false, if_false] at done
    cases identifiers : decodeIdentifierList (encodeIdentifiers names) with
    | error text => simp [identifiers] at done
    | ok decoded =>
      obtain rfl := decodeIdentifierList_encode short identifiers
      simp only [identifiers, flag, not_true_eq_false, if_false, Except.ok.injEq] at done
      exact done.symm

/-- A name is no longer than the response that carries it. -/
theorem length_le_marshal {moreFollows : Bool} {name : Octets} (member : name ∈ names) :
    name.length ≤ (marshalGetNameListResponse names moreFollows).length := by
  have inside : name.length ≤ (encodeIdentifiers names).length := by
    induction names with
    | nil => cases member
    | cons first names ih =>
      rw [encodeIdentifiers, List.length_append]
      rcases List.mem_cons.mp member with rfl | later
      · exact (length_le_encodeTLV tagVisibleString name).trans (Nat.le_add_right _ _)
      · exact (ih later).trans (Nat.le_add_left _ _)
  rw [marshalGetNameListResponse, List.length_append]
  exact inside.trans ((length_le_encodeTLV 0xa0 _).trans (Nat.le_add_right _ _))

end GoMms.Pdu
