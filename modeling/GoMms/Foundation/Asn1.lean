import GoMms.Foundation.TwosComplement

/-!
# Records as `encoding/asn1` reads them

The part of Go's `encoding/asn1` behind `Unmarshal` into a `RawValue`, into an `int64` and into an
`ObjectIdentifier`: identifier and length octets in their shortest form only, INTEGER contents and
OBJECT IDENTIFIER contents. The text of a tag mismatch is cut after its first words; the library
adds a dump of its own parameters.
-/

namespace GoMms.Asn1

open Octets

def syntaxError (text : String) : String := "asn1: syntax error: " ++ text

def structuralError (text : String) : String := "asn1: structure error: " ++ text

/-- `parseBase128Int` from the value accumulated in `shifted` octets: the number and what
follows it. -/
def parseBase128Int : Octets → (value shifted : Nat) → Except String (Nat × Octets)
  | [], _, _ => .error (syntaxError "truncated base 128 integer")
  | octet :: rest, value, shifted =>
    if shifted = 5 then .error (structuralError "base 128 integer too large")
    else if shifted = 0 ∧ octet = 0x80 then
      .error (syntaxError "integer is not minimally encoded")
    else
      let value := value * 128 + (octet &&& 0x7f).toNat
      if highBit octet then parseBase128Int rest value (shifted + 1)
      else if value > 2 ^ 31 - 1 then .error (structuralError "base 128 integer too large")
      else .ok (value, rest)

/-- The octets of a long length, from the length accumulated so far. -/
def parseLongLength : (numBytes : Nat) → Octets → (length : Nat) → Except String (Nat × Octets)
  | 0, rest, length =>
    if length < 0x80 then .error (structuralError "non-minimal length") else .ok (length, rest)
  | _ + 1, [], _ => .error (syntaxError "truncated tag or length")
  | numBytes + 1, octet :: rest, length =>
    if length ≥ 2 ^ 23 then .error (structuralError "length too large")
    else
      let length := length * 256 + octet.toNat
      if length = 0 then .error (structuralError "superfluous leading zeros in length")
      else parseLongLength numBytes rest length

def parseLength : Octets → Except String (Nat × Octets)
  | [] => .error (syntaxError "truncated tag or length")
  | octet :: rest =>
    if !highBit octet then .ok ((octet &&& 0x7f).toNat, rest)
    else
      let numBytes := (octet &&& 0x7f).toNat
      if numBytes = 0 then .error (syntaxError "indefinite length found (not DER)")
      else parseLongLength numBytes rest 0

/-- The identifier and length octets of a record. -/
structure TagAndLength where
  tagClass : Nat
  tag : Nat
  isCompound : Bool
  length : Nat
  deriving DecidableEq, Repr

/-- The tag number, which follows in base 128 when the low bits of the lead are all set. -/
def parseTag (lead : UInt8) (rest : Octets) : Except String (Nat × Octets) :=
  if lead &&& 0x1f = 0x1f then
    match parseBase128Int rest 0 0 with
    | .error text => .error text
    | .ok (tag, rest) =>
      if tag < 0x1f then .error (syntaxError "non-minimal tag") else .ok (tag, rest)
  else .ok ((lead &&& 0x1f).toNat, rest)

def parseTagAndLength : Octets → Except String (TagAndLength × Octets)
  -- the field parser has already refused an exhausted input in these words
  | [] => .error (syntaxError "sequence truncated")
  | lead :: rest =>
    match parseTag lead rest with
    | .error text => .error text
    | .ok (tag, rest) =>
      match parseLength rest with
      | .error text => .error text
      | .ok (length, rest) =>
        .ok (⟨(lead >>> 6).toNat, tag, lead &&& 0x20 = 0x20, length⟩, rest)

/-- `RawValue` without its copy of the whole record. -/
structure RawValue where
  tagClass : Nat
  tag : Nat
  isCompound : Bool
  bytes : Octets
  deriving DecidableEq, Repr

/-- `Unmarshal` into a `RawValue`: the record at the front and what follows it. -/
def unmarshalRawValue (data : Octets) : Except String (RawValue × Octets) :=
  match parseTagAndLength data with
  | .error text => .error text
  | .ok (header, rest) =>
    if header.length > rest.length then .error (syntaxError "data truncated")
    else
      .ok (⟨header.tagClass, header.tag, header.isCompound, rest.take header.length⟩,
        rest.drop header.length)

def checkInteger : Octets → Except String Unit
  | [] => .error (structuralError "empty integer")
  | [_] => .ok ()
  | first :: second :: _ =>
    if redundant first second then .error (structuralError "integer not minimally-encoded")
    else .ok ()

def parseInt64 (bytes : Octets) : Except String Int64 :=
  match checkInteger bytes with
  | .error text => .error text
  | .ok () =>
    if bytes.length > 8 then .error (structuralError "integer too large")
    else .ok (foldSigned bytes)

/-- `Unmarshal` into an `int64`: a universal primitive INTEGER and what follows it. -/
def unmarshalInt64 (data : Octets) : Except String (Int64 × Octets) :=
  match parseTagAndLength data with
  | .error text => .error text
  | .ok (header, rest) =>
    if header.tagClass ≠ 0 ∨ header.tag ≠ 2 ∨ header.isCompound then
      .error (structuralError "tags don't match")
    else if header.length > rest.length then .error (syntaxError "data truncated")
    else
      match parseInt64 (rest.take header.length) with
      | .error text => .error text
      | .ok value => .ok (value, rest.drop header.length)

/-- The arcs of an identifier, one base 128 number each; every arc takes an octet, so the length
bounds their count. -/
def parseArcs : (count : Nat) → Octets → Except String (List Int64)
  | _, [] => .ok []
  | 0, _ => .error (syntaxError "truncated base 128 integer")
  | count + 1, octets =>
    match parseBase128Int octets 0 0 with
    | .error text => .error text
    | .ok (v, rest) =>
      match parseArcs count rest with
      | .error text => .error text
      | .ok arcs => .ok (Int64.ofNat v :: arcs)

/-- The first number is `40 * value1 + value2`. -/
def leadingArcs (v : Nat) : List Int64 :=
  if v < 80 then [Int64.ofNat (v / 40), Int64.ofNat (v % 40)] else [2, Int64.ofNat (v - 80)]

def parseObjectIdentifier (bytes : Octets) : Except String (List Int64) :=
  if bytes.length = 0 then .error (syntaxError "zero length OBJECT IDENTIFIER")
  else
    match parseBase128Int bytes 0 0 with
    | .error text => .error text
    | .ok (v, rest) =>
      match parseArcs rest.length rest with
      | .error text => .error text
      | .ok arcs => .ok (leadingArcs v ++ arcs)

/-- `Unmarshal` into an `ObjectIdentifier`: a universal primitive OBJECT IDENTIFIER and what
follows it. -/
def unmarshalObjectIdentifier (data : Octets) : Except String (List Int64 × Octets) :=
  match parseTagAndLength data with
  | .error text => .error text
  | .ok (header, rest) =>
    if header.tagClass ≠ 0 ∨ header.tag ≠ 6 ∨ header.isCompound then
      .error (structuralError "tags don't match")
    else if header.length > rest.length then .error (syntaxError "data truncated")
    else
      match parseObjectIdentifier (rest.take header.length) with
      | .error text => .error text
      | .ok oid => .ok (oid, rest.drop header.length)

end GoMms.Asn1
