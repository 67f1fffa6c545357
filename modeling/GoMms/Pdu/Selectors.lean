import GoMms.Berutil.Integer
import GoMms.Pdu.NameList

/-!
# Alternate access on the wire

`internal/pdu/altaccess.go`. The encoder nests the rest of a chain inside every selector but the
last. The decoder is a loop that calls itself on the nested part; it is one layer here, tied to
itself with the length of the data as a bound, and `decodeAlternateAccess_eq` is the recursion of
the source.

A chain arrives as it was sent, each selector reduced to the one choice the encoder sends.
-/

namespace GoMms.Pdu

open Octets Berutil

def tagAltAccessWrapper : UInt8 := 0xa5
def tagSelectAltAccess : UInt8 := 0xa0

/-- The tags of the three choices of a selector. -/
structure SelectorTags where
  component : UInt8
  index : UInt8
  indexRange : UInt8

/-- The choices inside `selectAlternateAccess`. -/
def tagsSA : SelectorTags := ⟨0x80, 0x81, 0xa2⟩

/-- The choices of `selectAccess`, which ends a chain. -/
def tagsSS : SelectorTags := ⟨0x81, 0x82, 0xa3⟩

/-! ## Encoding -/

def encodeUnsigned32 (v : Int64) (field : String) : Except String Octets :=
  if v.toInt < 0 ∨ v.toInt > 4294967295 then
    .error ("alternate access " ++ field ++ " " ++ toString v.toInt ++ " out of Unsigned32 range")
  else .ok (encodeUint32 (UInt32.ofNat v.toInt.toNat))

def encodeIndexRange (tag : UInt8) (ir : IndexRangeWire) : Except String Octets :=
  match encodeUnsigned32 ir.lowIndex "lowIndex" with
  | .error text => .error text
  | .ok low =>
    match encodeUnsigned32 ir.numberOfElements "numberOfElements" with
    | .error text => .error text
    | .ok num => .ok (encodeTLV tag (encodeTLV 0x80 low ++ encodeTLV 0x81 num))

/-- The `switch` of `encodeTerminalSelector` and `encodeNestedSelector`. -/
def encodeChoice (tags : SelectorTags) (sel : AccessSelectorWire) : Except String Octets :=
  if sel.component ≠ [] then .ok (encodeTLV tags.component sel.component)
  else if sel.hasIndex then
    match encodeUnsigned32 sel.index "index" with
    | .error text => .error text
    | .ok idx => .ok (encodeTLV tags.index idx)
  else
    match sel.indexRange with
    | some ir => encodeIndexRange tags.indexRange ir
    | none => .error "empty access selector"

def encodeTerminalSelector (sel : AccessSelectorWire) : Except String Octets :=
  encodeChoice tagsSS sel

def encodeAlternateAccess : List AccessSelectorWire → Except String Octets
  | [] => .error "empty alternate access chain"
  | [sel] => encodeTerminalSelector sel
  | sel :: next :: rest =>
    -- encodeNestedSelector
    match encodeChoice tagsSA sel with
    | .error text => .error text
    | .ok accessSel =>
      match encodeAlternateAccess (next :: rest) with
      | .error text => .error ("nested alternate access: " ++ text)
      | .ok nested =>
        .ok (encodeTLV tagSelectAltAccess (accessSel ++ encodeTLV tagAltAccessWrapper nested))

/-! ## Decoding -/

def decodeComponentName (content : Octets) : Except String Octets :=
  if content.length = 0 then .error "empty component name"
  else if content.length > maxIdentifierLen then
    .error ("component name length " ++ toString content.length ++ " exceeds maximum " ++
      toString maxIdentifierLen)
  else .ok content

/-- One field of an index range; the state holds the fields seen so far. -/
def indexRangeField (data : Octets) (state : Option Int64 × Option Int64) (offset : Nat) :
    Except String (LoopStep (Option Int64 × Option Int64)) :=
  match decodeTLVAt data offset with
  | .error text => .error ("indexRange field: " ++ text)
  | .ok tlv =>
    let offset := offset + tlv.consumed
    if tlv.tag = 0x80 then
      match decodeUnsigned tlv.content with
      | .error text => .error ("indexRange lowIndex: " ++ text)
      | .ok v => .ok (.next (some (Int64.ofNat v.toNat), state.2) offset)
    else if tlv.tag = 0x81 then
      match decodeUnsigned tlv.content with
      | .error text => .error ("indexRange numberOfElements: " ++ text)
      | .ok v => .ok (.next (state.1, some (Int64.ofNat v.toNat)) offset)
    else .error ("indexRange: unexpected tag 0x" ++ hex02 tlv.tag)

def decodeIndexRange (data : Octets) : Except String IndexRangeWire :=
  match offsetLoop data.length (indexRangeField data) (none, none) 0 with
  | .error text => .error text
  | .ok ((some low, some num), _) => .ok ⟨low, num⟩
  | .ok _ => .error "indexRange: missing required field(s)"

/-- The choice of a selector, as the two decoders read it; `label` introduces their errors, that
of a component name only where `labelled` is set. -/
def decodeChoice (tags : SelectorTags) (label : String) (labelled : Bool) (unexpected : String)
    (tag : UInt8) (content : Octets) : Except String AccessSelectorWire :=
  if tag = tags.component then
    match decodeComponentName content with
    | .error text => .error (if labelled then label ++ " component: " ++ text else text)
    | .ok name => .ok ⟨name, false, 0, none⟩
  else if tag = tags.index then
    match decodeUnsigned content with
    | .error text => .error (label ++ " index: " ++ text)
    | .ok idx => .ok ⟨[], true, Int64.ofNat idx.toNat, none⟩
  else if tag = tags.indexRange then
    match decodeIndexRange content with
    | .error text => .error (label ++ " indexRange: " ++ text)
    | .ok ir => .ok ⟨[], false, 0, some ir⟩
  else .error (unexpected ++ hex02 tag)

/-- `decodeSelectAlternateAccess`, with `nested` the decoder of the part nested in it. -/
def decodeSelectAlternateAccess (nested : Octets → Except String (List AccessSelectorWire))
    (data : Octets) : Except String (List AccessSelectorWire) :=
  if data.length = 0 then .error "selectAlternateAccess: empty content"
  else
    match decodeTLVAt data 0 with
    | .error text => .error ("selectAlternateAccess accessSelection: " ++ text)
    | .ok first =>
      match decodeChoice tagsSA "selectAlternateAccess" true
        "selectAlternateAccess: unexpected accessSelection tag 0x" first.tag first.content with
      | .error text => .error text
      | .ok sel =>
        if first.consumed < data.length then
          match decodeTLVAt data first.consumed with
          | .error text => .error ("selectAlternateAccess nested: " ++ text)
          | .ok second =>
            if second.tag ≠ tagAltAccessWrapper then
              .error ("selectAlternateAccess: expected nested [5] (0xa5), got 0x" ++
                hex02 second.tag)
            else
              match nested second.content with
              | .error text => .error ("selectAlternateAccess nested: " ++ text)
              | .ok chain =>
                let offset := first.consumed + second.consumed
                if offset ≠ data.length then
                  .error ("selectAlternateAccess: " ++
                    toString ((data.length : Int) - offset) ++ " trailing bytes")
                else .ok (sel :: chain)
        else .ok [sel]

/-- One element of a chain. -/
def alternateAccessElement (nested : Octets → Except String (List AccessSelectorWire))
    (data : Octets) (chain : List AccessSelectorWire) (offset : Nat) :
    Except String (LoopStep (List AccessSelectorWire)) :=
  match decodeTLVAt data offset with
  | .error text => .error ("alternate access element: " ++ text)
  | .ok tlv =>
    let offset := offset + tlv.consumed
    if tlv.tag = tagSelectAltAccess then
      match decodeSelectAlternateAccess nested tlv.content with
      | .error text => .error text
      | .ok sels => .ok (.next (chain ++ sels) offset)
    else
      match decodeChoice tagsSS "selectAccess" false "unexpected alternate access tag 0x"
        tlv.tag tlv.content with
      | .error text => .error text
      | .ok sel => .ok (.next (chain ++ [sel]) offset)

/-- One layer of `decodeAlternateAccess`. -/
def decodeChain (nested : Octets → Except String (List AccessSelectorWire)) (data : Octets) :
    Except String (List AccessSelectorWire) :=
  match offsetLoop data.length (alternateAccessElement nested data) [] 0 with
  | .error text => .error text
  | .ok (chain, _) => if chain.length = 0 then .error "empty alternate access" else .ok chain

/-- The layers down to `depth`. -/
def decodeLayers : (depth : Nat) → Octets → Except String (List AccessSelectorWire)
  | 0, _ => .error "alternate access deeper than its data"
  | depth + 1, data => decodeChain (decodeLayers depth) data

/-- `decodeAlternateAccess`. Every nested part is shorter than the data it is in, so the length
bounds the layers. -/
def decodeAlternateAccess (data : Octets) : Except String (List AccessSelectorWire) :=
  decodeLayers (data.length + 1) data

/-! ## The recursion of the decoder -/

section Recursion

variable {nested other : Octets → Except String (List AccessSelectorWire)} {data : Octets}

theorem length_content_lt {offset : Nat} {tlv : Tlv} (read : decodeTLVAt data offset = .ok tlv) :
    tlv.content.length < data.length := by
  obtain ⟨inside, -, size, -⟩ := decodeTLVAt_ok read
  have header := lengthSize_pos tlv.content.length
  unfold tlvSize at size
  omega

theorem decodeSelectAlternateAccess_congr
    (agree : ∀ content : Octets, content.length < data.length → nested content = other content) :
    decodeSelectAlternateAccess nested data = decodeSelectAlternateAccess other data := by
  unfold decodeSelectAlternateAccess
  split
  · rfl
  · split
    · rfl
    · split
      · rfl
      · split
        · split
          · rfl
          · next second read => rw [agree second.content (length_content_lt read)]
        · rfl

theorem decodeChain_congr
    (agree : ∀ content : Octets, content.length < data.length → nested content = other content) :
    decodeChain nested data = decodeChain other data := by
  have bodies : ∀ chain offset, offset < data.length →
      alternateAccessElement nested data chain offset =
        alternateAccessElement other data chain offset := by
    intro chain offset _
    unfold alternateAccessElement
    split
    · rfl
    rename_i tlv read
    have shorter := length_content_lt read
    rw [decodeSelectAlternateAccess_congr fun content less =>
      agree content (less.trans shorter)]
  rw [decodeChain, decodeChain, offsetLoop_congr bodies]

theorem decodeLayers_eq {depth deeper : Nat} (enough : data.length < depth)
    (more : data.length < deeper) : decodeLayers depth data = decodeLayers deeper data := by
  induction depth generalizing data deeper with
  | zero => omega
  | succ depth ih =>
    cases deeper with
    | zero => omega
    | succ deeper =>
      rw [decodeLayers, decodeLayers]
      exact decodeChain_congr fun content shorter => ih (by omega) (by omega)

/-- The decoder calls itself on every nested part. -/
theorem decodeAlternateAccess_eq (data : Octets) :
    decodeAlternateAccess data = decodeChain decodeAlternateAccess data := by
  rw [decodeAlternateAccess, decodeLayers]
  exact decodeChain_congr fun content shorter =>
    decodeLayers_eq shorter (Nat.lt_succ_self content.length)

end Recursion

/-! ## What arrives of a chain -/

/-- What arrives of a selector: the choice that is sent, everything else at its zero value. -/
def AccessSelectorWire.received (sel : AccessSelectorWire) : AccessSelectorWire :=
  if sel.component ≠ [] then ⟨sel.component, false, 0, none⟩
  else if sel.hasIndex then ⟨[], true, sel.index, none⟩
  else ⟨[], false, 0, sel.indexRange⟩

/-- The number is an Unsigned32. -/
def IsUnsigned32 (v : Int64) : Prop := 0 ≤ v.toInt ∧ v.toInt < 2 ^ 32

/-- The selector makes a choice, its component name is not too long and its numbers are
Unsigned32. -/
structure AccessSelectorWire.Sendable (sel : AccessSelectorWire) : Prop where
  chosen : sel.component ≠ [] ∨ sel.hasIndex = true ∨ sel.indexRange ≠ none
  component : sel.component.length ≤ maxIdentifierLen
  index : IsUnsigned32 sel.index
  range : ∀ range ∈ sel.indexRange,
    IsUnsigned32 range.lowIndex ∧ IsUnsigned32 range.numberOfElements

section Choices

variable {sel : AccessSelectorWire}

theorem encodeUnsigned32_spec {v : Int64} (inRange : IsUnsigned32 v) (field : String) :
    ∃ octets w, encodeUnsigned32 v field = .ok octets ∧ octets.length ≤ 5 ∧
      decodeUnsigned octets = .ok w ∧ Int64.ofNat w.toNat = v := by
  obtain ⟨nonneg, small⟩ := inRange
  have word : (UInt32.ofNat v.toInt.toNat).toNat = v.toInt.toNat :=
    UInt32.toNat_ofNat_of_lt' (by simp only [UInt32.size]; omega)
  obtain ⟨minimal, value, short⟩ := encodeUint32_spec (UInt32.ofNat v.toInt.toNat)
  refine ⟨_, UInt32.ofNat v.toInt.toNat, if_neg (by omega), short, decodeUnsigned_eq minimal value,
    ?_⟩
  apply Int64.toInt_inj.mp
  rw [word, Int64.toInt_ofNat_of_lt (by omega)]
  omega

theorem encodeIndexRange_spec (tag : UInt8) {ir : IndexRangeWire}
    (inRange : IsUnsigned32 ir.lowIndex ∧ IsUnsigned32 ir.numberOfElements) :
    ∃ content, encodeIndexRange tag ir = .ok (encodeTLV tag content) ∧ content.length ≤ 14 ∧
      decodeIndexRange content = .ok ir := by
  obtain ⟨low, lowWord, lowEncoded, lowShort, lowDecoded, lowSame⟩ :=
    encodeUnsigned32_spec inRange.1 "lowIndex"
  obtain ⟨num, numWord, numEncoded, numShort, numDecoded, numSame⟩ :=
    encodeUnsigned32_spec inRange.2 "numberOfElements"
  refine ⟨encodeTLV 0x80 low ++ encodeTLV 0x81 num, ?_, ?_, ?_⟩
  · simp only [encodeIndexRange, lowEncoded, numEncoded]
  · simp only [List.length_append, length_encodeTLV, tlvSize, lengthSize]
    split <;> split <;> omega
  · have fits : ∀ record ∈ [((0x80 : UInt8), low), (0x81, num)], record.2.length < maxContent := by
      rw [List.forall_mem_cons, List.forall_mem_singleton, maxContent]
      exact ⟨by dsimp only; omega, by dsimp only; omega⟩
    have loop := offsetLoop_records
      (fun state record => if record.1 = 0x80 then (some ir.lowIndex, state.2)
        else (state.1, some ir.numberOfElements)) indexRangeField
      (fun _ rest => ∀ record ∈ rest, record = (0x80, low) ∨ record = (0x81, num))
      (fun data offset state record rest known read => ?_) fits (none, none) (by simp)
    · simp only [encodeFields_cons, encodeFields_nil, List.append_nil] at loop
      rw [decodeIndexRange, loop]
      rfl
    · obtain ⟨first, others⟩ := List.forall_mem_cons.mp known
      refine ⟨?_, others⟩
      rcases first with rfl | rfl
      · simp [indexRangeField, read, lowDecoded, lowSame]
      · simp [indexRangeField, read, numDecoded, numSame]

/-- A sendable selector is one record, from which either decoder takes the choice. -/
theorem encodeChoice_spec (tags : SelectorTags) (sendable : sel.Sendable)
    (distinct : tags.index ≠ tags.component ∧ tags.indexRange ≠ tags.component ∧
      tags.indexRange ≠ tags.index) :
    ∃ tag content, encodeChoice tags sel = .ok (encodeTLV tag content) ∧
      (tag = tags.component ∨ tag = tags.index ∨ tag = tags.indexRange) ∧
      content.length < maxContent ∧ ∀ label labelled unexpected,
        decodeChoice tags label labelled unexpected tag content = .ok sel.received := by
  by_cases named : sel.component ≠ []
  · have nonempty : sel.component.length ≠ 0 := fun none => named (List.length_eq_zero_iff.mp none)
    have short : ¬ maxIdentifierLen < sel.component.length := Nat.not_lt.mpr sendable.component
    refine ⟨tags.component, sel.component, if_pos named, .inl rfl, ?_, fun label labelled _ => ?_⟩
    · exact sendable.component.trans_lt (by decide)
    · simp [decodeChoice, decodeComponentName, nonempty, short, AccessSelectorWire.received, named]
  · by_cases indexed : sel.hasIndex = true
    · obtain ⟨octets, word, encoded, short, decoded, same⟩ :=
        encodeUnsigned32_spec sendable.index "index"
      refine ⟨tags.index, octets, ?_, .inr (.inl rfl), ?_, fun label labelled _ => ?_⟩
      · simp [encodeChoice, named, indexed, encoded]
      · exact short.trans_lt (by decide)
      · simp [decodeChoice, distinct.1, decoded, same, AccessSelectorWire.received, named, indexed]
    · cases ranged : sel.indexRange with
      | none => exact (sendable.chosen.elim named (·.elim indexed fun some => some ranged)).elim
      | some ir =>
        obtain ⟨content, encoded, short, decoded⟩ :=
          encodeIndexRange_spec tags.indexRange (sendable.range ir ranged)
        refine ⟨tags.indexRange, content, ?_, .inr (.inr rfl), ?_, fun label labelled _ => ?_⟩
        · simp [encodeChoice, named, indexed, ranged, encoded]
        · exact short.trans_lt (by decide)
        · simp [decodeChoice, distinct.2.1, distinct.2.2, decoded, AccessSelectorWire.received,
            named, indexed, ranged]

end Choices

section Chains

variable {selectors : List AccessSelectorWire}

variable {nested : Octets → Except String (List AccessSelectorWire)} {tag : UInt8}
  {content : Octets} {sels : List AccessSelectorWire}

/-- A chain in one record is what its only pass finds. -/
theorem decodeChain_single (fits : content.length < maxContent) (some : sels ≠ [])
    (pass : (if tag = tagSelectAltAccess then decodeSelectAlternateAccess nested content
      else (decodeChoice tagsSS "selectAccess" false "unexpected alternate access tag 0x" tag
        content).map ([·])) = .ok sels) :
    decodeChain nested (encodeTLV tag content) = .ok sels := by
  have read := decodeTLVAt_alone tag fits
  have positive := two_le_tlvSize content.length
  have element : alternateAccessElement nested (encodeTLV tag content) [] 0 =
      .ok (.next sels (tlvSize content.length)) := by
    simp only [alternateAccessElement, read]
    split at pass
    · next nests => simp [nests, pass]
    rename_i chooses
    cases chosen : decodeChoice tagsSS "selectAccess" false
      "unexpected alternate access tag 0x" tag content with
    | error text => simp [chosen, Except.map] at pass
    | ok sel =>
      simp only [chosen, Except.map, Except.ok.injEq] at pass
      simp [chooses, pass]
  have loop : offsetLoop (encodeTLV tag content).length
      (alternateAccessElement nested (encodeTLV tag content)) [] 0 =
        .ok (sels, tlvSize content.length) := by
    rw [offsetLoop_next (by rw [length_encodeTLV]; omega) element (by omega),
      offsetLoop_done (by rw [length_encodeTLV])]
  simp only [decodeChain, loop]
  rw [if_neg (by simpa using some)]

variable {sel : AccessSelectorWire} {octets : Octets}

/-- A selector followed by the rest of its chain. -/
theorem decodeSelectAlternateAccess_encode {inner : Octets} (short : content.length < maxContent)
    (fits : inner.length < maxContent) (chosen : ∀ label labelled unexpected,
      decodeChoice tagsSA label labelled unexpected tag content = .ok sel)
    (rest : nested inner = .ok sels) :
    decodeSelectAlternateAccess nested
      (encodeTLV tag content ++ encodeTLV tagAltAccessWrapper inner) = .ok (sel :: sels) := by
  have first := decodeTLVAt_first tag short (encodeTLV tagAltAccessWrapper inner)
  have second := decodeTLVAt_encodeTLV tagAltAccessWrapper fits (encodeTLV tag content) []
  have total : (encodeTLV tag content ++ encodeTLV tagAltAccessWrapper inner).length =
      tlvSize content.length + tlvSize inner.length := by
    rw [List.length_append, length_encodeTLV, length_encodeTLV]
  have positive := two_le_tlvSize inner.length
  simp only [List.append_nil, length_encodeTLV] at second
  simp only [decodeSelectAlternateAccess, first, chosen, second, rest, total, ne_eq,
    not_true_eq_false, if_false]
  rw [if_neg (by omega), if_pos (by omega)]

theorem decodeAlternateAccess_encode (chain : selectors ≠ [])
    (sendable : ∀ sel ∈ selectors, sel.Sendable) :
    ∃ octets, encodeAlternateAccess selectors = .ok octets ∧ (octets.length < maxContent →
      decodeAlternateAccess octets = .ok (selectors.map AccessSelectorWire.received)) := by
  induction selectors with
  | nil => exact (chain rfl).elim
  | cons sel rest ih =>
    obtain ⟨first, others⟩ := List.forall_mem_cons.mp sendable
    cases rest with
    | nil =>
      obtain ⟨tag, content, encoded, known, short, decoded⟩ :=
        encodeChoice_spec tagsSS first (by decide)
      refine ⟨encodeTLV tag content, encoded, fun _ => ?_⟩
      have terminal : tag ≠ tagSelectAltAccess := by
        rcases known with rfl | rfl | rfl <;> decide
      rw [decodeAlternateAccess_eq]
      refine decodeChain_single short (by simp) ?_
      rw [if_neg terminal, decoded]
      rfl
    | cons next rest =>
      obtain ⟨tag, content, encoded, -, short, decoded⟩ :=
        encodeChoice_spec tagsSA first (by decide)
      obtain ⟨nested, nestedEncoded, arrives⟩ := ih (by simp) others
      refine ⟨encodeTLV tagSelectAltAccess (encodeTLV tag content ++
        encodeTLV tagAltAccessWrapper nested), ?_, fun fits => ?_⟩
      · simp only [encodeAlternateAccess, encoded, nestedEncoded]
      · have whole := length_le_encodeTLV tagSelectAltAccess (encodeTLV tag content ++
          encodeTLV tagAltAccessWrapper nested)
        have inner := length_le_encodeTLV tagAltAccessWrapper nested
        have part : (encodeTLV tag content ++ encodeTLV tagAltAccessWrapper nested).length =
            (encodeTLV tag content).length + (encodeTLV tagAltAccessWrapper nested).length :=
          List.length_append
        rw [decodeAlternateAccess_eq]
        refine decodeChain_single (by omega) (by simp) ?_
        rw [if_pos rfl, decodeSelectAlternateAccess_encode short (by omega) decoded
          (arrives (by omega))]
        rfl

/-! ## Sending on what arrived -/

theorem encodeChoice_received (tags : SelectorTags) (sel : AccessSelectorWire) :
    encodeChoice tags sel.received = encodeChoice tags sel := by
  unfold AccessSelectorWire.received
  split_ifs with named indexed
  · simp [encodeChoice, named]
  · simp [encodeChoice, named, indexed]
  · simp [encodeChoice, named, indexed]

theorem encodeAlternateAccess_received (selectors : List AccessSelectorWire) :
    encodeAlternateAccess (selectors.map AccessSelectorWire.received) =
      encodeAlternateAccess selectors := by
  induction selectors with
  | nil => rfl
  | cons sel rest ih =>
    cases rest with
    | nil => exact encodeChoice_received tagsSS sel
    | cons next rest =>
      simp only [List.map_cons] at ih ⊢
      simp only [encodeAlternateAccess, encodeChoice_received, ih]

theorem AccessSelectorWire.received_received (sel : AccessSelectorWire) :
    sel.received.received = sel.received := by
  by_cases named : sel.component = []
  · by_cases indexed : sel.hasIndex = true <;> simp [received, named, indexed]
  · simp [received, named]

theorem isUnsigned32_of_encode {v : Int64} {field : String}
    (encoded : encodeUnsigned32 v field = .ok octets) : IsUnsigned32 v := by
  unfold encodeUnsigned32 at encoded
  split_ifs at encoded with outside
  exact ⟨by omega, by omega⟩

/-- Only the choice that is sent has to be within its range. -/
theorem sendable_received_of_encodeChoice {tags : SelectorTags}
    (encoded : encodeChoice tags sel = .ok octets)
    (short : sel.component.length ≤ maxIdentifierLen) : sel.received.Sendable := by
  have zero : IsUnsigned32 0 := ⟨by decide, by decide⟩
  unfold encodeChoice at encoded
  unfold AccessSelectorWire.received
  split_ifs at encoded ⊢ with named indexed
  · exact ⟨.inl named, short, zero, by simp⟩
  · split at encoded
    · cases encoded
    rename_i index
    exact ⟨.inr (.inl rfl), by simp, isUnsigned32_of_encode index, by simp⟩
  · split at encoded
    · rename_i range ranged
      unfold encodeIndexRange at encoded
      split at encoded
      · cases encoded
      rename_i low
      split at encoded
      · cases encoded
      rename_i num
      refine ⟨.inr (.inr (by simp [ranged])), by simp, zero, ?_⟩
      rintro found member
      rw [Option.mem_def, ranged, Option.some.injEq] at member
      subst member
      exact ⟨isUnsigned32_of_encode low, isUnsigned32_of_encode num⟩
    · cases encoded

theorem sendable_received_of_encode (encoded : encodeAlternateAccess selectors = .ok octets)
    (member : sel ∈ selectors) (short : sel.component.length ≤ maxIdentifierLen) :
    sel.received.Sendable := by
  induction selectors generalizing octets with
  | nil => cases member
  | cons head rest ih =>
    cases rest with
    | nil =>
      rw [List.mem_singleton] at member
      subst member
      exact sendable_received_of_encodeChoice encoded short
    | cons next rest =>
      unfold encodeAlternateAccess at encoded
      split at encoded
      · cases encoded
      rename_i own
      split at encoded
      · cases encoded
      rename_i following
      rcases List.mem_cons.mp member with rfl | later
      · exact sendable_received_of_encodeChoice own short
      · exact ih following later

end Chains

/-! ## What the decoder accepts -/

section Accepted

theorem isUnsigned32_ofNat (v : UInt32) : IsUnsigned32 (Int64.ofNat v.toNat) := by
  have small := v.toNat_lt
  rw [IsUnsigned32, Int64.toInt_ofNat_of_lt (by omega)]
  exact ⟨by omega, by omega⟩

theorem decodeIndexRange_isUnsigned32 {data : Octets} {ir : IndexRangeWire}
    (decoded : decodeIndexRange data = .ok ir) :
    IsUnsigned32 ir.lowIndex ∧ IsUnsigned32 ir.numberOfElements := by
  unfold decodeIndexRange at decoded
  split at decoded
  · cases decoded
  · rename_i low num last done
    cases decoded
    -- every field seen so far is a number of 32 bits
    have fields := offsetLoop_invariant
      (fun state _ => (∀ v ∈ state.1, IsUnsigned32 v) ∧ ∀ v ∈ state.2, IsUnsigned32 v)
      (fun state offset step seen _ pass => ?_) (by simp) done
    · exact ⟨fields.1 low rfl, fields.2 num rfl⟩
    · unfold indexRangeField at pass
      split at pass
      · cases pass
      simp only at pass
      split_ifs at pass
      · split at pass
        · cases pass
        · cases pass
          exact ⟨by simp [LoopStep.state, isUnsigned32_ofNat], seen.2⟩
      · split at pass
        · cases pass
        · cases pass
          exact ⟨seen.1, by simp [LoopStep.state, isUnsigned32_ofNat]⟩
  · cases decoded

theorem decodeChoice_sendable {tags : SelectorTags} {label unexpected : String} {labelled : Bool}
    {tag : UInt8} {content : Octets} {sel : AccessSelectorWire}
    (decoded : decodeChoice tags label labelled unexpected tag content = .ok sel) :
    sel.Sendable := by
  have zero : IsUnsigned32 0 := ⟨by decide, by decide⟩
  unfold decodeChoice at decoded
  split at decoded
  · split at decoded
    · cases decoded
    rename_i name named
    cases decoded
    unfold decodeComponentName at named
    split_ifs at named with empty long
    cases named
    exact ⟨.inl (List.ne_nil_of_length_pos (Nat.pos_of_ne_zero empty)), not_lt.mp long, zero,
      by simp⟩
  · split at decoded
    · split at decoded
      · cases decoded
      · cases decoded
        exact ⟨.inr (.inl rfl), Nat.zero_le _, isUnsigned32_ofNat _, by simp⟩
    · split at decoded
      · split at decoded
        · cases decoded
        rename_i ir ranged
        cases decoded
        refine ⟨.inr (.inr (by simp)), Nat.zero_le _, zero, ?_⟩
        rintro range ⟨⟩
        exact decodeIndexRange_isUnsigned32 ranged
      · cases decoded

variable {nested : Octets → Except String (List AccessSelectorWire)} {data : Octets}

theorem decodeSelectAlternateAccess_sendable {sels : List AccessSelectorWire}
    (below : ∀ content chain, nested content = .ok chain → ∀ sel ∈ chain, sel.Sendable)
    (decoded : decodeSelectAlternateAccess nested data = .ok sels) :
    ∀ sel ∈ sels, sel.Sendable := by
  unfold decodeSelectAlternateAccess at decoded
  split at decoded
  · cases decoded
  split at decoded
  · cases decoded
  split at decoded
  · cases decoded
  rename_i first chosen
  split at decoded
  · split at decoded
    · cases decoded
    · split at decoded
      · cases decoded
      · split at decoded
        · cases decoded
        rename_i chain inner
        simp only at decoded
        split at decoded
        · cases decoded
        cases decoded
        exact List.forall_mem_cons.mpr ⟨decodeChoice_sendable chosen, below _ _ inner⟩
  · cases decoded
    exact List.forall_mem_singleton.mpr (decodeChoice_sendable chosen)

variable {selectors : List AccessSelectorWire}

theorem decodeChain_sendable
    (below : ∀ content chain, nested content = .ok chain → ∀ sel ∈ chain, sel.Sendable)
    (decoded : decodeChain nested data = .ok selectors) : ∀ sel ∈ selectors, sel.Sendable := by
  unfold decodeChain at decoded
  split at decoded
  · cases decoded
  rename_i chain last done
  split at decoded
  · cases decoded
  cases decoded
  refine offsetLoop_invariant (fun chain _ => ∀ sel ∈ chain, sel.Sendable)
    (fun chain offset step seen _ pass => ?_) (by simp) done
  unfold alternateAccessElement at pass
  split at pass
  · cases pass
  simp only at pass
  split at pass
  · split at pass
    · cases pass
    rename_i sels inner
    cases pass
    exact List.forall_mem_append.mpr ⟨seen, decodeSelectAlternateAccess_sendable below inner⟩
  · split at pass
    · cases pass
    rename_i sel chosen
    cases pass
    exact List.forall_mem_append.mpr
      ⟨seen, List.forall_mem_singleton.mpr (decodeChoice_sendable chosen)⟩

theorem decodeLayers_sendable {depth : Nat} (decoded : decodeLayers depth data = .ok selectors) :
    ∀ sel ∈ selectors, sel.Sendable := by
  induction depth generalizing data selectors with
  | zero => cases decoded
  | succ depth ih => exact decodeChain_sendable (fun content chain => ih) decoded

/-- A chain that is accepted can be sent. -/
theorem decodeAlternateAccess_sendable (decoded : decodeAlternateAccess data = .ok selectors) :
    ∀ sel ∈ selectors, sel.Sendable :=
  decodeLayers_sendable decoded

end Accepted

end GoMms.Pdu
