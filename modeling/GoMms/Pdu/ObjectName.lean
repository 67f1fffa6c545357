import GoMms.Berutil.Tlv

/-!
# Object names on the wire

`internal/pdu`: a name is a VMD or association identifier, or a pair of a domain and an item
identifier. Only a domain-specific name carries its domain.
-/

namespace GoMms.Pdu

open Berutil

def scopeVMD : Int64 := 0
def scopeDomain : Int64 := 1
def scopeAssociation : Int64 := 2

structure ObjectNameWire where
  scope : Int64 := scopeVMD
  domainID : Octets := []
  itemID : Octets
  deriving DecidableEq, Repr

structure IndexRangeWire where
  lowIndex : Int64
  numberOfElements : Int64
  deriving DecidableEq, Repr

structure AccessSelectorWire where
  component : Octets
  hasIndex : Bool
  index : Int64
  indexRange : Option IndexRangeWire
  deriving DecidableEq, Repr

/-- A name with optional alternate access. -/
structure VariableSpecWire where
  name : ObjectNameWire
  alternateAccess : List AccessSelectorWire
  deriving DecidableEq, Repr

def tagVisibleString : UInt8 := 0x1a

/-- The contents of a domain-specific name. -/
def encodeDomainSpecific (domainID itemID : Octets) : Octets :=
  encodeTLV tagVisibleString domainID ++ encodeTLV tagVisibleString itemID

def encodeObjectName (name : ObjectNameWire) : Except String Octets :=
  if name.scope = scopeVMD then .ok (encodeTLV 0x80 name.itemID)
  else if name.scope = scopeDomain then
    .ok (encodeTLV 0xa1 (encodeDomainSpecific name.domainID name.itemID))
  else if name.scope = scopeAssociation then .ok (encodeTLV 0x82 name.itemID)
  else .error ("pdu: invalid ObjectName scope " ++ toString name.scope)

/-- One identifier of a domain-specific name: its contents and the offset after it. -/
def decodeVisibleString (field : String) (data : Octets) (offset : Nat) :
    Except String (Octets × Nat) :=
  match decodeTLVAt data offset with
  | .error text => .error ("domainSpecific " ++ field ++ ": " ++ text)
  | .ok tlv =>
    if tlv.tag ≠ tagVisibleString then
      .error ("domainSpecific " ++ field ++ ": expected VisibleString, got 0x" ++ hex02 tlv.tag)
    else .ok (tlv.content, offset + tlv.consumed)

def decodeDomainSpecificName (data : Octets) : Except String ObjectNameWire :=
  match decodeVisibleString "domainId" data 0 with
  | .error text => .error text
  | .ok (domainID, offset) =>
    match decodeVisibleString "itemId" data offset with
    | .error text => .error text
    | .ok (itemID, offset) =>
      if offset ≠ data.length then
        .error ("domainSpecific: " ++ toString ((data.length : Int) - offset) ++ " trailing bytes")
      else .ok { scope := scopeDomain, domainID := domainID, itemID := itemID }

def decodeObjectNameFromTLV (tag : UInt8) (content : Octets) : Except String ObjectNameWire :=
  if tag = 0x80 then .ok { scope := scopeVMD, itemID := content }
  else if tag = 0xa1 then decodeDomainSpecificName content
  else if tag = 0x82 then .ok { scope := scopeAssociation, itemID := content }
  else .error ("unexpected ObjectName tag 0x" ++ hex02 tag)

def decodeObjectName (data : Octets) : Except String ObjectNameWire :=
  match decodeTLV data with
  | .error text => .error ("decode object name: " ++ text)
  | .ok (tag, content) => decodeObjectNameFromTLV tag content

/-! ## Round trips -/

theorem decodeVisibleString_encodeTLV (field : String) {content : Octets}
    (fits : content.length < maxContent) (front rest : Octets) :
    decodeVisibleString field (front ++ encodeTLV tagVisibleString content ++ rest) front.length =
      .ok (content, front.length + tlvSize content.length) := by
  simp only [decodeVisibleString, decodeTLVAt_encodeTLV tagVisibleString fits front rest, ne_eq,
    not_true_eq_false, if_false]

theorem decodeDomainSpecificName_encode {domainID itemID : Octets}
    (fits : (encodeDomainSpecific domainID itemID).length < maxContent) :
    decodeDomainSpecificName (encodeDomainSpecific domainID itemID) =
      .ok { scope := scopeDomain, domainID := domainID, itemID := itemID } := by
  have total : (encodeDomainSpecific domainID itemID).length =
      (encodeTLV tagVisibleString domainID).length +
        (encodeTLV tagVisibleString itemID).length := List.length_append
  have domainFits : domainID.length < maxContent := by
    have inner := length_le_encodeTLV tagVisibleString domainID
    omega
  have itemFits : itemID.length < maxContent := by
    have inner := length_le_encodeTLV tagVisibleString itemID
    omega
  have first : decodeVisibleString "domainId" (encodeDomainSpecific domainID itemID) 0 =
      .ok (domainID, tlvSize domainID.length) := by
    have read := decodeVisibleString_encodeTLV "domainId" domainFits []
      (encodeTLV tagVisibleString itemID)
    simpa [encodeDomainSpecific] using read
  have second : decodeVisibleString "itemId" (encodeDomainSpecific domainID itemID)
      (tlvSize domainID.length) =
      .ok (itemID, tlvSize domainID.length + tlvSize itemID.length) := by
    have read := decodeVisibleString_encodeTLV "itemId" itemFits
      (encodeTLV tagVisibleString domainID) []
    simpa [encodeDomainSpecific] using read
  rw [length_encodeTLV, length_encodeTLV] at total
  simp only [decodeDomainSpecificName, first, second, total, ne_eq, not_true_eq_false, if_false]

/-- The length of the contents a name has on the wire. -/
def wireContentLength (name : ObjectNameWire) : Nat :=
  if name.scope = scopeDomain then (encodeDomainSpecific name.domainID name.itemID).length
  else name.itemID.length

variable {name : ObjectNameWire}

/-- A VMD-specific name arrives without its domain. -/
theorem decodeObjectName_encode_vmd (scope : name.scope = scopeVMD)
    (fits : wireContentLength name < maxContent) :
    ∃ octets, encodeObjectName name = .ok octets ∧
      decodeObjectName octets = .ok { scope := scopeVMD, itemID := name.itemID } := by
  have short : name.itemID.length < maxContent := by
    simpa [wireContentLength, scope, scopeVMD, scopeDomain] using fits
  refine ⟨_, if_pos scope, ?_⟩
  simp only [decodeObjectName, decodeTLV_encodeTLV 0x80 short, decodeObjectNameFromTLV, if_true]

theorem decodeObjectName_encode_domain (scope : name.scope = scopeDomain)
    (fits : wireContentLength name < maxContent) :
    ∃ octets, encodeObjectName name = .ok octets ∧ decodeObjectName octets = .ok name := by
  have short : (encodeDomainSpecific name.domainID name.itemID).length < maxContent := by
    simpa [wireContentLength, scope] using fits
  refine ⟨encodeTLV 0xa1 (encodeDomainSpecific name.domainID name.itemID), ?_, ?_⟩
  · simp [encodeObjectName, scope, scopeVMD, scopeDomain]
  · simp only [decodeObjectName, decodeTLV_encodeTLV 0xa1 short, decodeObjectNameFromTLV,
      show (0xa1 : UInt8) ≠ 0x80 by decide, if_false, if_true,
      decodeDomainSpecificName_encode short, ← scope]

/-- The scopes that can be sent. -/
def ObjectNameWire.KnownScope (name : ObjectNameWire) : Prop :=
  name.scope = scopeVMD ∨ name.scope = scopeDomain ∨ name.scope = scopeAssociation

/-- What arrives of a name: only a domain-specific one has a domain. -/
def ObjectNameWire.received (name : ObjectNameWire) : ObjectNameWire :=
  if name.scope = scopeDomain then name else { name with domainID := [] }

theorem decodeObjectName_encode (known : name.KnownScope) :
    ∃ octets, encodeObjectName name = .ok octets ∧
      (octets.length < maxContent → decodeObjectName octets = .ok name.received) := by
  rcases known with scope | scope | scope
  · refine ⟨encodeTLV 0x80 name.itemID, if_pos scope, fun fits => ?_⟩
    have short := (length_le_encodeTLV 0x80 name.itemID).trans_lt fits
    simp only [decodeObjectName, decodeTLV_encodeTLV 0x80 short, decodeObjectNameFromTLV, if_true]
    simp [ObjectNameWire.received, scope, scopeVMD, scopeDomain]
  · refine ⟨encodeTLV 0xa1 (encodeDomainSpecific name.domainID name.itemID), ?_, fun fits => ?_⟩
    · simp [encodeObjectName, scope, scopeVMD, scopeDomain]
    · have short := (length_le_encodeTLV 0xa1
        (encodeDomainSpecific name.domainID name.itemID)).trans_lt fits
      simp only [decodeObjectName, decodeTLV_encodeTLV 0xa1 short, decodeObjectNameFromTLV,
        show (0xa1 : UInt8) ≠ 0x80 by decide, if_false, if_true,
        decodeDomainSpecificName_encode short, ObjectNameWire.received, if_pos scope]
      rw [← scope]
  · refine ⟨encodeTLV 0x82 name.itemID, ?_, fun fits => ?_⟩
    · simp [encodeObjectName, scope, scopeVMD, scopeDomain, scopeAssociation]
    · have short := (length_le_encodeTLV 0x82 name.itemID).trans_lt fits
      simp only [decodeObjectName, decodeTLV_encodeTLV 0x82 short, decodeObjectNameFromTLV,
        show (0x82 : UInt8) ≠ 0x80 by decide, show (0x82 : UInt8) ≠ 0xa1 by decide, if_false,
        if_true]
      simp [ObjectNameWire.received, scope, scopeAssociation, scopeDomain]

theorem ObjectNameWire.received_received (name : ObjectNameWire) :
    name.received.received = name.received := by
  unfold received
  split_ifs <;> rfl

theorem encodeObjectName_received (name : ObjectNameWire) :
    encodeObjectName name.received = encodeObjectName name := by
  unfold ObjectNameWire.received
  split_ifs with inDomain
  · rfl
  · simp [encodeObjectName, inDomain]

theorem knownScope_of_encode {octets : Octets} (encoded : encodeObjectName name = .ok octets) :
    name.KnownScope := by
  unfold encodeObjectName at encoded
  split_ifs at encoded with vmd inDomain association
  · exact .inl vmd
  · exact .inr (.inl inDomain)
  · exact .inr (.inr association)

theorem knownScope_received (known : name.KnownScope) : name.received.KnownScope := by
  unfold ObjectNameWire.received
  split_ifs <;> exact known

/-- A name that is accepted can be sent. -/
theorem decodeObjectName_knownScope {data : Octets} (decoded : decodeObjectName data = .ok name) :
    name.KnownScope := by
  unfold decodeObjectName at decoded
  split at decoded
  · cases decoded
  unfold decodeObjectNameFromTLV at decoded
  split_ifs at decoded
  · cases decoded
    exact .inl rfl
  · unfold decodeDomainSpecificName at decoded
    split at decoded
    · cases decoded
    split at decoded
    · cases decoded
    split_ifs at decoded
    cases decoded
    exact .inr (.inl rfl)
  · cases decoded
    exact .inr (.inr rfl)

end GoMms.Pdu
