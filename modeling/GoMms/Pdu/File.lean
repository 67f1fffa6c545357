import GoMms.Berutil.Fields
import GoMms.Codec.Request
import GoMms.Foundation.Runtime

/-!
# The file services

`file.go` of `internal/pdu`: the client's requests and the server's responses of FileOpen,
FileRead, FileClose, FileDelete, FileRename, ObtainFile and FileDirectory, with the decoder of
each on the other side. The marshalers of requests and of FileRead responses never fail and are
modelled without their error result. A Go string is its octets.
-/

namespace GoMms.Pdu

open Octets Berutil Codec

def maxFileNameLength : Nat := 1024
def maxDirectoryEntries : Nat := 10000

structure FileDirectoryEntry where
  fileName : Octets := []
  size : Int64 := 0
  lastModified : Instant := .zero
  deriving DecidableEq

structure FileOpenRequest where
  fileName : Octets := []
  initialPosition : UInt32 := 0
  deriving DecidableEq, Repr

structure FileDirectoryRequest where
  fileSpec : Octets
  continueAfter : Octets
  deriving DecidableEq, Repr

structure FileRenameRequest where
  currentFileName : Octets
  newFileName : Octets
  deriving DecidableEq, Repr

structure ObtainFileRequest where
  sourceFile : Octets
  destinationFile : Octets
  deriving DecidableEq, Repr

structure FileOpenResult where
  frsmID : Int32 := 0
  size : Int64 := 0
  lastModified : Instant := .zero
  deriving DecidableEq

structure FileReadResult where
  data : Octets := []
  moreFollows : Bool := true
  deriving DecidableEq, Repr

/-! ## Service tags -/

def tagNumObtainFile : Int64 := 46
def tagNumFileOpen : Int64 := 72
def tagNumFileRead : Int64 := 73
def tagNumFileClose : Int64 := 74
def tagNumFileRename : Int64 := 75
def tagNumFileDelete : Int64 := 76
def tagNumFileDirectory : Int64 := 77

/-! ## File names -/

def encodeFileNameInner (name : Octets) : Octets := encodeTLV 0x19 name

def encodeFileNameTag (tag : UInt8) (name : Octets) : Octets :=
  encodeTLV tag (encodeFileNameInner name)

def encodeFileName (name : Octets) : Octets := encodeFileNameTag 0xa0 name

/-- The length check at the end of both forms of `decodeFileName`. -/
def checkedFileName (name : Octets) : Except String Octets :=
  if name.length > maxFileNameLength then
    .error ("pdu: file name length " ++ toString name.length ++ " exceeds maximum " ++
      toString maxFileNameLength)
  else .ok name

/-- A bare GraphicString, or one inside a constructed wrapper. -/
def decodeFileName (data : Octets) : Except String Octets :=
  if data.length = 0 then .error "pdu: empty FileName"
  else
    match decodeTLVAt data 0 with
    | .error text => .error ("pdu: decode FileName: " ++ text)
    | .ok tlv =>
      if tlv.tag = 0x19 then
        if tlv.consumed ≠ data.length then
          .error ("pdu: FileName: " ++ toString ((data.length : Int) - tlv.consumed) ++
            " trailing bytes after GraphicString")
        else checkedFileName tlv.content
      else if tlv.tag &&& 0x20 ≠ 0 then
        if tlv.consumed ≠ data.length then
          .error ("pdu: FileName: " ++ toString ((data.length : Int) - tlv.consumed) ++
            " trailing bytes after wrapper")
        else
          match decodeTLVAt tlv.content 0 with
          | .error text => .error ("pdu: decode FileName inner: " ++ text)
          | .ok inner =>
            if inner.consumed ≠ tlv.content.length then
              .error ("pdu: FileName: " ++
                toString ((tlv.content.length : Int) - inner.consumed) ++
                " trailing bytes inside wrapper")
            else if inner.tag = 0x19 then checkedFileName inner.content
            else
              .error ("pdu: FileName: expected GraphicString (0x19) inside wrapper, got 0x" ++
                hex02 inner.tag)
      else .error ("pdu: FileName: unexpected tag 0x" ++ hex02 tlv.tag)

/-! ## Requests -/

def marshalFileOpenRequest (invokeID : UInt32) (fileName : Octets) (initialPosition : UInt32) :
    Octets :=
  marshalConfirmedRequest invokeID tagNumFileOpen true
    (encodeFileName fileName ++ encodeTLV 0x81 (encodeUint32 initialPosition))

def marshalFileReadRequest (invokeID : UInt32) (frsmID : Int32) : Octets :=
  marshalConfirmedRequest invokeID tagNumFileRead false (encodeInt frsmID.toInt64)

def marshalFileCloseRequest (invokeID : UInt32) (frsmID : Int32) : Octets :=
  marshalConfirmedRequest invokeID tagNumFileClose false (encodeInt frsmID.toInt64)

def marshalFileDeleteRequest (invokeID : UInt32) (fileName : Octets) : Octets :=
  marshalConfirmedRequest invokeID tagNumFileDelete true (encodeFileNameInner fileName)

def marshalFileDirectoryRequest (invokeID : UInt32) (fileSpec continueAfter : Octets) : Octets :=
  marshalConfirmedRequest invokeID tagNumFileDirectory true
    ((if fileSpec ≠ [] then encodeFileNameTag 0xa0 fileSpec else []) ++
      if continueAfter ≠ [] then encodeFileNameTag 0xa1 continueAfter else [])

def marshalFileRenameRequest (invokeID : UInt32) (currentName newName : Octets) : Octets :=
  marshalConfirmedRequest invokeID tagNumFileRename true
    (encodeFileNameTag 0xa0 currentName ++ encodeFileNameTag 0xa1 newName)

def marshalObtainFileRequest (invokeID : UInt32) (sourceFile destFile : Octets) : Octets :=
  marshalConfirmedRequest invokeID tagNumObtainFile true
    (encodeFileNameTag 0xa1 sourceFile ++ encodeFileNameTag 0xa2 destFile)

def fileOpenRequestField (req : FileOpenRequest) (tag : UInt8) (inner : Octets) :
    Except String FileOpenRequest :=
  if tag = 0xa0 then
    match decodeFileName inner with
    | .error text => .error ("pdu: file-open fileName: " ++ text)
    | .ok name => .ok { req with fileName := name }
  else if tag = 0x81 then
    match decodeUnsigned inner with
    | .error text => .error ("pdu: file-open initialPosition: " ++ text)
    | .ok position => .ok { req with initialPosition := position }
  else unexpectedTag tag "UnmarshalFileOpenRequest"

def unmarshalFileOpenRequest (data : Octets) : Except String FileOpenRequest :=
  match decodeFields (fun _ => "pdu: file-open request: ") fileOpenRequestField data {} with
  | .error text => .error text
  | .ok req =>
    if req.fileName = [] then .error "pdu: file-open request: missing fileName" else .ok req

def unmarshalFileReadRequest (data : Octets) : Except String Int32 :=
  match decodeInt32 data with
  | .error text => .error ("pdu: file-read request: " ++ text)
  | .ok frsmID => .ok frsmID

def unmarshalFileCloseRequest (data : Octets) : Except String Int32 :=
  match decodeInt32 data with
  | .error text => .error ("pdu: file-close request: " ++ text)
  | .ok frsmID => .ok frsmID

def unmarshalFileDeleteRequest (data : Octets) : Except String Octets := decodeFileName data

/-- The texts with which a request of two file names reports a field. -/
structure TwoNames where
  firstTag : UInt8
  secondTag : UInt8
  firstField : String
  secondField : String
  function : String

def TwoNames.field (request : TwoNames) (names : Octets × Octets) (tag : UInt8) (inner : Octets) :
    Except String (Octets × Octets) :=
  if tag = request.firstTag then
    match decodeFileName inner with
    | .error text => .error (request.firstField ++ text)
    | .ok name => .ok (name, names.2)
  else if tag = request.secondTag then
    match decodeFileName inner with
    | .error text => .error (request.secondField ++ text)
    | .ok name => .ok (names.1, name)
  else unexpectedTag tag request.function

def fileDirectoryNames : TwoNames where
  firstTag := 0xa0
  secondTag := 0xa1
  firstField := "pdu: file-directory fileSpec: "
  secondField := "pdu: file-directory continueAfter: "
  function := "UnmarshalFileDirectoryRequest"

def unmarshalFileDirectoryRequest (data : Octets) : Except String FileDirectoryRequest :=
  match decodeFields (fun _ => "pdu: file-directory request: ") fileDirectoryNames.field data
    ([], []) with
  | .error text => .error text
  | .ok (fileSpec, continueAfter) => .ok ⟨fileSpec, continueAfter⟩

def fileRenameNames : TwoNames where
  firstTag := 0xa0
  secondTag := 0xa1
  firstField := "pdu: file-rename currentFileName: "
  secondField := "pdu: file-rename newFileName: "
  function := "UnmarshalFileRenameRequest"

def unmarshalFileRenameRequest (data : Octets) : Except String FileRenameRequest :=
  match decodeFields (fun _ => "pdu: file-rename request: ") fileRenameNames.field data
    ([], []) with
  | .error text => .error text
  | .ok (currentFileName, newFileName) =>
    if currentFileName = [] ∨ newFileName = [] then
      .error "pdu: file-rename request: missing required field(s)"
    else .ok ⟨currentFileName, newFileName⟩

def obtainFileNames : TwoNames where
  firstTag := 0xa1
  secondTag := 0xa2
  firstField := "pdu: obtain-file sourceFileName: "
  secondField := "pdu: obtain-file destinationFileName: "
  function := "UnmarshalObtainFileRequest"

def unmarshalObtainFileRequest (data : Octets) : Except String ObtainFileRequest :=
  match decodeFields (fun _ => "pdu: obtain-file request: ") obtainFileNames.field data
    ([], []) with
  | .error text => .error text
  | .ok (sourceFile, destinationFile) =>
    if sourceFile = [] ∨ destinationFile = [] then
      .error "pdu: obtain-file request: missing required field(s)"
    else .ok ⟨sourceFile, destinationFile⟩

/-! ## Responses -/

section Responses

-- the layout `20060102150405Z` of the time of the last modification
variable (layout : TimeLayout)

def encodeFileAttributes (size : Int64) (lastModified : Instant) : Except String Octets :=
  if size < 0 ∨ size > 4294967295 then
    .error ("pdu: file size " ++ toString size ++ " exceeds MMS Unsigned32 range [0, 4294967295]")
  else
    .ok (encodeTLV 0x80 (encodeUint32 size.toUInt64.toUInt32) ++
      if lastModified.isZero then [] else encodeTLV 0x81 (layout.format lastModified))

def marshalFileOpenResponse (frsmID : Int32) (size : Int64) (lastModified : Instant) :
    Except String Octets :=
  match encodeFileAttributes layout size lastModified with
  | .error text => .error text
  | .ok attrs => .ok (encodeTLV 0x80 (encodeInt frsmID.toInt64) ++ encodeTLV 0xa1 attrs)

def marshalFileReadResponse (data : Octets) (moreFollows : Bool) : Octets :=
  encodeTLV 0x80 data ++ if moreFollows then [] else encodeTLV 0x81 [0x00]

def encodeDirectoryEntry (quote : Octets → String) (entry : FileDirectoryEntry) :
    Except String Octets :=
  match encodeFileAttributes layout entry.size entry.lastModified with
  | .error text => .error ("pdu: file " ++ quote entry.fileName ++ ": " ++ text)
  | .ok attrs =>
    .ok (encodeTLV 0x30 (encodeFileNameTag 0xa0 entry.fileName ++ encodeTLV 0xa1 attrs))

def encodeDirectoryEntries (quote : Octets → String) (entries : List FileDirectoryEntry) :
    Except String Octets :=
  encodeAll (encodeDirectoryEntry layout quote) entries

def marshalFileDirectoryResponse (quote : Octets → String) (entries : List FileDirectoryEntry)
    (moreFollows : Bool) : Except String Octets :=
  match encodeDirectoryEntries layout quote entries with
  | .error text => .error text
  | .ok entriesBytes =>
    .ok (encodeTLV 0xa0 (encodeTLV 0x30 entriesBytes) ++
      if moreFollows then encodeTLV 0x81 [0xff] else [])

def fileAttributesField (state : FileOpenResult × Bool) (tag : UInt8) (inner : Octets) :
    Except String (FileOpenResult × Bool) :=
  if tag = 0x80 then
    match decodeUnsigned inner with
    | .error text => .error ("pdu: file size: " ++ text)
    | .ok size => .ok ({ state.1 with size := Int64.ofNat size.toNat }, true)
  else if tag = 0x81 then
    match layout.parse inner with
    | .error text => .error ("pdu: file lastModified: " ++ text)
    | .ok time => .ok ({ state.1 with lastModified := time }, state.2)
  else unexpectedTag tag "parseFileAttributes"

/-- The result with the attributes stored in it, and whether there was a size. -/
def parseFileAttributes (data : Octets) (result : FileOpenResult) :
    Except String (FileOpenResult × Bool) :=
  decodeFields (fun _ => "pdu: file attributes: ") (fileAttributesField layout) data (result, false)

/-- The state of `UnmarshalFileOpenResponse`. -/
structure FileOpenFields where
  result : FileOpenResult := {}
  hasFrsmID : Bool := false
  hasSize : Bool := false

def fileOpenResponseField (state : FileOpenFields) (tag : UInt8) (inner : Octets) :
    Except String FileOpenFields :=
  if tag = 0x80 then
    match decodeInt32 inner with
    | .error text => .error ("pdu: file-open frsmID: " ++ text)
    | .ok frsmID =>
      .ok { state with result := { state.result with frsmID := frsmID }, hasFrsmID := true }
  else if tag = 0xa1 then
    match parseFileAttributes layout inner state.result with
    | .error text => .error text
    | .ok (result, gotSize) => .ok { state with result := result, hasSize := gotSize }
  else unexpectedTag tag "UnmarshalFileOpenResponse"

def unmarshalFileOpenResponse (data : Octets) : Except String FileOpenResult :=
  match decodeFields (fun _ => "pdu: file-open response: ") (fileOpenResponseField layout) data
    {} with
  | .error text => .error text
  | .ok state =>
    if ¬state.hasFrsmID then .error "pdu: file-open response: missing frsmID"
    else if ¬state.hasSize then .error "pdu: file-open response: missing file size"
    else .ok state.result

def fileReadResponseField (result : FileReadResult) (tag : UInt8) (inner : Octets) :
    Except String FileReadResult :=
  if tag = 0x80 then .ok { result with data := inner }
  else if tag = 0x81 then
    match inner with
    | [] => .ok result
    | octet :: _ => .ok { result with moreFollows := octet != 0 }
  else unexpectedTag tag "UnmarshalFileReadResponse"

def unmarshalFileReadResponse (data : Octets) : Except String FileReadResult :=
  decodeFields (fun _ => "pdu: file-read response: ") fileReadResponseField data {}

/-- Strips the SEQUENCE OF of the explicit form. The first octet inside a SEQUENCE tells an entry,
which starts with its file name, from the wrapper, which starts with an entry. -/
def unwrapDirectoryList (data : Octets) : Octets :=
  match decodeTLVAt data 0 with
  | .error _ => data
  | .ok tlv =>
    if tlv.tag ≠ 0x30 ∨ tlv.consumed ≠ data.length then data
    else if tlv.content ≠ [] ∧ tlv.content.head? ≠ some 0x30 then data
    else tlv.content

def directoryEntryField (entry : FileDirectoryEntry) (tag : UInt8) (inner : Octets) :
    Except String FileDirectoryEntry :=
  if tag = 0xa0 then
    match decodeFileName inner with
    | .error text => .error ("pdu: directory entry fileName: " ++ text)
    | .ok name => .ok { entry with fileName := name }
  else if tag = 0xa1 then
    match parseFileAttributes layout inner {} with
    | .error text => .error text
    | .ok (result, _) =>
      .ok { entry with size := result.size, lastModified := result.lastModified }
  else unexpectedTag tag "parseDirectoryEntries"

/-- One entry, after those already found. -/
def directoryEntriesField (entries : List FileDirectoryEntry) (tag : UInt8) (inner : Octets) :
    Except String (List FileDirectoryEntry) :=
  if tag ≠ 0x30 then
    .error ("pdu: directory entry: expected SEQUENCE (0x30), got 0x" ++ hex02 tag)
  else
    match decodeFields (fun _ => "pdu: directory entry field: ") (directoryEntryField layout) inner
      {} with
    | .error text => .error text
    | .ok entry =>
      if (entries ++ [entry]).length > maxDirectoryEntries then
        .error ("pdu: directory entries " ++ toString (entries ++ [entry]).length ++
          " exceeds maximum " ++ toString maxDirectoryEntries)
      else .ok (entries ++ [entry])

def parseDirectoryEntries (data : Octets) : Except String (List FileDirectoryEntry) :=
  decodeFields (fun _ => "pdu: directory entry: ") (directoryEntriesField layout) data []

def fileDirectoryResponseField (state : List FileDirectoryEntry × Bool) (tag : UInt8)
    (inner : Octets) : Except String (List FileDirectoryEntry × Bool) :=
  if tag = 0xa0 then
    match parseDirectoryEntries layout (unwrapDirectoryList inner) with
    | .error text => .error text
    | .ok entries => .ok (entries, state.2)
  else if tag = 0x81 then
    match inner with
    | [] => .ok state
    | octet :: _ => .ok (state.1, octet != 0)
  else unexpectedTag tag "UnmarshalFileDirectoryResponse"

/-- The entries and whether more follow. -/
def unmarshalFileDirectoryResponse (data : Octets) :
    Except String (List FileDirectoryEntry × Bool) :=
  decodeFields (fun _ => "pdu: file-directory response: ") (fileDirectoryResponseField layout) data
    ([], false)

end Responses

end GoMms.Pdu
