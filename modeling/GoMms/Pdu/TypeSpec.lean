import GoMms.Pdu.Results

/-!
# Type specifications on the wire

`TypeSpecWire`, `EncodeTypeSpec` and `DecodeTypeSpec` of `internal/pdu`, and the response of
GetVariableAccessAttributes around them. The source's record is populated according to its tag;
here each tag is a constructor with the fields it populates, and nil pointers are `none`. The
decoder's depth counter appears as the number of levels it may still enter.
-/

namespace GoMms.Pdu

open Octets Berutil

/-- A type specification. The components of a structure are pairs of a name, which may be empty,
and a type; `other` is any tag that names no type. -/
inductive TypeSpecWire where
  | typeName (name : Option ObjectNameWire)
  | array (count : Int64) (element : Option TypeSpecWire)
  | struct (components : List (Octets × TypeSpecWire))
  | boolean
  | bitString (size : Int64)
  | integer (size : Int64)
  | unsigned (size : Int64)
  | float (formatWidth expWidth : Int64)
  | octetString (size : Int64)
  | visibleString (size : Int64)
  | generalizedTime
  | binaryTime (full : Bool)
  | bcd (size : Int64)
  | objID
  | mmsString (size : Int64)
  | utcTime
  | other (tag : Int64)

def maxTypeSpecNestingDepth : Nat := 32

/-! ## Encoding -/

def TypeSpecWire.tag : TypeSpecWire → UInt8
  | .typeName _ => 0xa0
  | .array _ _ => 0xa1
  | .struct _ => 0xa2
  | .boolean => 0x83
  | .bitString _ => 0x84
  | .integer _ => 0x85
  | .unsigned _ => 0x86
  | .float _ _ => 0xa7
  | .octetString _ => 0x89
  | .visibleString _ => 0x8a
  | .generalizedTime => 0x8b
  | .binaryTime _ => 0x8c
  | .bcd _ => 0x8d
  | .objID => 0x8f
  | .mmsString _ => 0x90
  | .utcTime => 0x91
  | .other _ => 0

section Codec

-- `quote` is `fmt`'s `%q`, which only appears in error texts
variable (quote : Octets → String)

mutual

/-- The content `EncodeTypeSpec` wraps in the tag of the type. -/
def typeSpecContent : TypeSpecWire → Except String Octets
  | .boolean | .generalizedTime | .objID | .utcTime => .ok []
  | .bitString size | .integer size | .unsigned size | .octetString size | .visibleString size
  | .mmsString size | .bcd size => .ok (encodeSmallInt size)
  | .float formatWidth expWidth =>
    .ok (encodeTLV 0x02 (encodeSmallInt formatWidth) ++ encodeTLV 0x02 (encodeSmallInt expWidth))
  | .binaryTime full => .ok [if full then 0xff else 0x00]
  | .array count none => .ok (encodeTLV 0x81 (encodeSmallInt count))
  | .array count (some element) =>
    match typeSpecContent element with
    | .error text => .error ("array elementType: " ++ text)
    | .ok content =>
      .ok (encodeTLV 0x81 (encodeSmallInt count) ++ encodeTLV 0xa2 (encodeTLV element.tag content))
  | .struct components =>
    match componentsContent components with
    | .error text => .error text
    | .ok compsInner => .ok (encodeTLV 0xa1 compsInner)
  | .typeName none => .error "typespec typeName: nil TypeName"
  | .typeName (some name) =>
    match encodeObjectName name with
    | .error text => .error ("typeName: " ++ text)
    | .ok nameBytes => .ok nameBytes
  | .other tag => .error ("typespec: unsupported tag " ++ toString tag)

/-- The components of a structure one after another; an empty name is left out. -/
def componentsContent : List (Octets × TypeSpecWire) → Except String Octets
  | [] => .ok []
  | (name, type) :: rest =>
    match typeSpecContent type with
    | .error text => .error ("structure component " ++ quote name ++ ": " ++ text)
    | .ok content =>
      match componentsContent rest with
      | .error text => .error text
      | .ok octets =>
        .ok (encodeTLV 0x30 ((if name ≠ [] then encodeTLV 0x80 name else []) ++
          encodeTLV 0xa1 (encodeTLV type.tag content)) ++ octets)

end

def encodeTypeSpec (ts : TypeSpecWire) : Except String Octets :=
  match typeSpecContent quote ts with
  | .error text => .error text
  | .ok content => .ok (encodeTLV ts.tag content)

def marshalGetVarAccessResponse (deletable : Bool) (ts : TypeSpecWire) : Except String Octets :=
  match encodeTypeSpec quote ts with
  | .error text => .error ("getvaraccess response: typespec: " ++ text)
  | .ok tsBytes =>
    .ok (encodeTLV 0x80 [if deletable then 0xff else 0x00] ++ encodeTLV 0xa2 tsBytes)

end Codec

/-! ## Decoding -/

/-- A type whose content is one INTEGER. -/
def decodeSized (field : String) (make : Int64 → TypeSpecWire) (content : Octets) :
    Except String TypeSpecWire :=
  match decodeInteger content with
  | .error text => .error ("typespec " ++ field ++ " size: " ++ text)
  | .ok size => .ok (make size)

def decodeFloatTypeSpec (data : Octets) : Except String TypeSpecWire :=
  match requiredField "float formatWidth: " "float formatWidth: expected INTEGER (0x02), got 0x"
    0x02 data 0 with
  | .error text => .error text
  | .ok (width, offset) =>
    match decodeInteger width with
    | .error text => .error ("float formatWidth value: " ++ text)
    | .ok formatWidth =>
      match requiredField "float exponentWidth: "
        "float exponentWidth: expected INTEGER (0x02), got 0x" 0x02 data offset with
      | .error text => .error text
      | .ok (exponent, offset) =>
        if offset ≠ data.length then
          .error ("float: " ++ toString ((data.length : Int) - offset) ++ " trailing bytes")
        else
          match decodeInteger exponent with
          | .error text => .error ("float exponentWidth value: " ++ text)
          | .ok expWidth => .ok (.float formatWidth expWidth)

section Decode

-- `read` is the decoder one level down
variable (read : Octets → Except String TypeSpecWire)

def decodeArrayTypeSpec (data : Octets) : Except String TypeSpecWire :=
  match optionalField "array packed: " 0x80 data 0 with
  | .error text => .error text
  | .ok (_, offset) =>
    if offset ≥ data.length then .error "array: missing numberOfElements"
    else
      match requiredField "array numberOfElements: "
        "array numberOfElements: expected [1] (0x81), got 0x" 0x81 data offset with
      | .error text => .error text
      | .ok (number, offset) =>
        match decodeInteger number with
        | .error text => .error ("array numberOfElements value: " ++ text)
        | .ok count =>
          if offset ≥ data.length then .error "array: missing elementType"
          else
            match requiredField "array elementType: "
              "array elementType: expected [2] (0xa2), got 0x" 0xa2 data offset with
            | .error text => .error text
            | .ok (content, offset) =>
              if offset ≠ data.length then
                .error ("array: " ++ toString ((data.length : Int) - offset) ++ " trailing bytes")
              else
                match read content with
                | .error text => .error ("array elementType: " ++ text)
                | .ok elemType => .ok (.array count (some elemType))

def decodeStructComponent (data : Octets) : Except String (Octets × TypeSpecWire) :=
  match optionalField "componentName: " 0x80 data 0 with
  | .error text => .error text
  | .ok (name, offset) =>
    if offset ≥ data.length then .error "missing componentType"
    else
      match requiredField "componentType: " "componentType: expected [1] (0xa1), got 0x" 0xa1
        data offset with
      | .error text => .error text
      | .ok (content, offset) =>
        if offset ≠ data.length then
          .error ("structComponent: " ++ toString ((data.length : Int) - offset) ++
            " trailing bytes")
        else
          match read content with
          | .error text => .error ("componentType: " ++ text)
          | .ok ts => .ok (name.getD [], ts)

/-- One component of a structure, after those already found. -/
def structComponentField (components : List (Octets × TypeSpecWire)) (tag : UInt8)
    (content : Octets) : Except String (List (Octets × TypeSpecWire)) :=
  if tag ≠ tagSequence then
    .error ("component [" ++ toString components.length ++ "]: expected SEQUENCE (0x30), got 0x" ++
      hex02 tag)
  else
    match decodeStructComponent read content with
    | .error text => .error ("component [" ++ toString components.length ++ "]: " ++ text)
    | .ok comp => .ok (components ++ [comp])

def decodeStructComponents (data : Octets) : Except String (List (Octets × TypeSpecWire)) :=
  decodeFields (fun components => "component [" ++ toString components.length ++ "]: ")
    (structComponentField read) data []

def decodeStructureTypeSpec (data : Octets) : Except String TypeSpecWire :=
  match optionalField "structure packed: " 0x80 data 0 with
  | .error text => .error text
  | .ok (_, offset) =>
    if offset ≥ data.length then .error "structure: missing components"
    else
      match requiredField "structure components: "
        "structure components: expected [1] (0xa1), got 0x" 0xa1 data offset with
      | .error text => .error text
      | .ok (content, offset) =>
        if offset ≠ data.length then
          .error ("structure: " ++ toString ((data.length : Int) - offset) ++ " trailing bytes")
        else
          match decodeStructComponents read content with
          | .error text => .error text
          | .ok components => .ok (.struct components)

/-- `decodeTypeSpecFromTLVWithDepth`; only the low bits of the tag select the type. -/
def decodeTypeSpecFromTLV (tag : UInt8) (content : Octets) : Except String TypeSpecWire :=
  let isConstructed := tag &&& 0x20 ≠ 0
  match (tag &&& 0x1f).toNat with
  | 3 => .ok .boolean
  | 4 => decodeSized "bitstring" .bitString content
  | 5 => decodeSized "integer" .integer content
  | 6 => decodeSized "unsigned" .unsigned content
  | 7 =>
    if isConstructed then decodeFloatTypeSpec content
    else .error "typespec float: expected constructed"
  | 9 => decodeSized "octetstring" .octetString content
  | 10 => decodeSized "visiblestring" .visibleString content
  | 11 => .ok .generalizedTime
  | 12 => .ok (.binaryTime (match content with | [octet] => octet != 0 | _ => false))
  | 13 => decodeSized "bcd" .bcd content
  | 15 => .ok .objID
  | 16 => decodeSized "mmsstring" .mmsString content
  | 17 => .ok .utcTime
  | 1 =>
    if isConstructed then decodeArrayTypeSpec read content
    else .error "typespec array: expected constructed"
  | 2 =>
    if isConstructed then decodeStructureTypeSpec read content
    else .error "typespec structure: expected constructed"
  | 0 =>
    match decodeObjectName content with
    | .error text => .error ("typespec typeName: " ++ text)
    | .ok name => .ok (.typeName (some name))
  | tagNum =>
    .error ("typespec: unknown tag [" ++ toString tagNum ++ "] (0x" ++ hex02 tag ++ ")")

end Decode

/-- `decodeTypeSpecWithDepth` at depth `maxTypeSpecNestingDepth + 1 - levels`. -/
def decodeTypeSpecWithDepth : (levels : Nat) → Octets → Except String TypeSpecWire
  | 0, _ =>
    .error ("pdu: typespec nesting depth " ++ toString (maxTypeSpecNestingDepth + 1) ++
      " exceeds maximum " ++ toString maxTypeSpecNestingDepth)
  | levels + 1, data =>
    match decodeTLV data with
    | .error text => .error ("typespec: " ++ text)
    | .ok (tag, content) => decodeTypeSpecFromTLV (decodeTypeSpecWithDepth levels) tag content

def decodeTypeSpec (data : Octets) : Except String TypeSpecWire :=
  decodeTypeSpecWithDepth (maxTypeSpecNestingDepth + 1) data

structure GetVarAccessResult where
  deletable : Bool
  typeSpec : TypeSpecWire

def unmarshalGetVarAccessResponse (content : Octets) : Except String GetVarAccessResult :=
  if content.length = 0 then .error "pdu: getvaraccess response: empty content"
  else
    match requiredField "pdu: getvaraccess response: mmsDeletable: "
      "pdu: getvaraccess response: expected mmsDeletable [0] (0x80), got 0x" 0x80 content 0 with
    | .error text => .error text
    | .ok (inner, offset) =>
      let deletable := match inner with | [octet] => octet != 0 | _ => false
      match optionalField "pdu: getvaraccess response: address: " 0xa1 content offset with
      | .error text => .error text
      | .ok (_, offset) =>
        if offset ≥ content.length then
          .error "pdu: getvaraccess response: missing typeSpecification"
        else
          match requiredField "pdu: getvaraccess response: typeSpec: "
            "pdu: getvaraccess response: expected typeSpecification [2] (0xa2), got 0x" 0xa2
            content offset with
          | .error text => .error text
          | .ok (inner, offset) =>
            match decodeTypeSpec inner with
            | .error text => .error ("pdu: getvaraccess response: " ++ text)
            | .ok ts =>
              if offset ≠ content.length then
                .error ("pdu: getvaraccess response: " ++
                  toString ((content.length : Int) - offset) ++ " trailing bytes")
              else .ok ⟨deletable, ts⟩

end GoMms.Pdu
