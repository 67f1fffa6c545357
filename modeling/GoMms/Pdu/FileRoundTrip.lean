import GoMms.Pdu.AccessRequest
import GoMms.Pdu.File

/-!
# File service round trips

Each decoder of `file.go` inverts the encoder on the other side. Requests are followed from the
PDU the client sends to the body the server's decoder is called with. A directory list is read
the same with and without the SEQUENCE OF that explicit tagging puts around the entries.
-/

namespace GoMms

/-- A whole second of the years 1 to 9999. -/
def Instant.InCalendar (time : Instant) : Prop :=
  time.nanosecond = 0 ∧ -62135596800 ≤ time.unix ∧ time.unix ≤ 253402300799

/-- What is assumed of `Format` and `time.Parse` with a layout that prints the year and the
seconds: they are inverse on the years of four digits, and no text is longer than 24 octets, a
sign, twelve digits of the year, ten further digits and the zone. -/
structure TimeLayout.Lawful (layout : TimeLayout) : Prop where
  parse_format : ∀ time : Instant, time.InCalendar → layout.parse (layout.format time) = .ok time
  length_format : ∀ time, (layout.format time).length ≤ 24

/-- A reader of the first time as it is written gets the second. The zero time is left out. -/
def TimeLayout.Shows (layout : TimeLayout) (time shown : Instant) : Prop :=
  if time.isZero then shown = .zero else layout.parse (layout.format time) = .ok shown

theorem Instant.eq_zero_of_isZero {time : Instant} (zero : time.isZero) : time = .zero := by
  simp only [Instant.isZero, Bool.and_eq_true, beq_iff_eq] at zero
  exact Instant.ext zero.1 zero.2

end GoMms

namespace GoMms.Pdu

open Octets Berutil Codec

/-! ## File names -/

section Names

variable {name : Octets}

theorem checkedFileName_ok (short : name.length ≤ 1024) : checkedFileName name = .ok name := by
  rw [checkedFileName, maxFileNameLength, if_neg (not_lt.mpr short)]

theorem decodeFileName_inner (short : name.length ≤ 1024) :
    decodeFileName (encodeFileNameInner name) = .ok name := by
  have record := decodeTLVAt_alone 0x19 (show name.length < maxContent from
    short.trans_lt (by decide))
  have size := two_le_tlvSize name.length
  have some : ¬(encodeFileNameInner name).length = 0 := by
    rw [encodeFileNameInner, length_encodeTLV]
    omega
  rw [decodeFileName, if_neg some, encodeFileNameInner, record]
  simp only [length_encodeTLV, ne_eq, not_true_eq_false, if_true, if_false]
  exact checkedFileName_ok short

theorem length_encodeFileNameInner_le (short : name.length ≤ 1024) :
    (encodeFileNameInner name).length ≤ 1034 :=
  (length_encodeTLV_le 0x19 (short.trans_lt (by decide))).trans (by omega)

theorem length_encodeFileNameTag_le (tag : UInt8) (short : name.length ≤ 1024) :
    (encodeFileNameTag tag name).length ≤ 1044 := by
  have inner := length_encodeFileNameInner_le short
  exact (length_encodeTLV_le tag (inner.trans_lt (by decide))).trans (by omega)

end Names

/-! ## Requests -/

section Requests

theorem unmarshalFileOpenRequest_encode {name : Octets} (some : name ≠ [])
    (short : name.length ≤ 1024) (position : UInt32) :
    unmarshalFileOpenRequest (encodeFileName name ++ encodeTLV 0x81 (encodeUint32 position)) =
      .ok ⟨name, position⟩ := by
  have inner := length_encodeFileNameInner_le short
  have number := (encodeUint32_spec position).2.2
  rw [unmarshalFileOpenRequest, encodeFileName, encodeFileNameTag,
    decodeFields_pair _ _ (inner.trans_lt (by decide)) (number.trans_lt (by decide))]
  simp only [fileOpenRequestField, decodeFileName_inner short, if_true, Except.bind,
    show ¬(0x81 : UInt8) = 0xa0 by decide, if_false, decodeUnsigned_encodeUint32, some]

section TwoNames

variable (request : TwoNames) {first second : Octets}

theorem TwoNames.field_first (names : Octets × Octets) (short : first.length ≤ 1024) :
    request.field names request.firstTag (encodeFileNameInner first) = .ok (first, names.2) := by
  simp only [TwoNames.field, if_true, decodeFileName_inner short]

theorem TwoNames.field_second (distinct : request.secondTag ≠ request.firstTag)
    (names : Octets × Octets) (short : second.length ≤ 1024) :
    request.field names request.secondTag (encodeFileNameInner second) = .ok (names.1, second) := by
  simp only [TwoNames.field, distinct, if_false, if_true, decodeFileName_inner short]

theorem TwoNames.decodeFields_encode (distinct : request.secondTag ≠ request.firstTag)
    (context : Octets × Octets → String) (short : first.length ≤ 1024)
    (nextShort : second.length ≤ 1024) :
    decodeFields context request.field (encodeFileNameTag request.firstTag first ++
        encodeFileNameTag request.secondTag second) ([], []) = .ok (first, second) := by
  have inner := length_encodeFileNameInner_le short
  have next := length_encodeFileNameInner_le nextShort
  rw [encodeFileNameTag, encodeFileNameTag,
    decodeFields_pair _ _ (inner.trans_lt (by decide)) (next.trans_lt (by decide)),
    request.field_first _ short]
  exact request.field_second distinct _ nextShort

/-- A name that is left out stays empty. -/
theorem TwoNames.decodeFields_encode_optional (distinct : request.secondTag ≠ request.firstTag)
    (context : Octets × Octets → String) (short : first.length ≤ 1024)
    (nextShort : second.length ≤ 1024) :
    decodeFields context request.field
        ((if first ≠ [] then encodeFileNameTag request.firstTag first else []) ++
          if second ≠ [] then encodeFileNameTag request.secondTag second else []) ([], []) =
      .ok (first, second) := by
  have fields : ((if first ≠ [] then encodeFileNameTag request.firstTag first else []) ++
      if second ≠ [] then encodeFileNameTag request.secondTag second else []) =
        encodeFields
          ((if first ≠ [] then [(request.firstTag, encodeFileNameInner first)] else []) ++
          if second ≠ [] then [(request.secondTag, encodeFileNameInner second)] else []) := by
    split <;> split <;> simp [encodeFileNameTag]
  have inner := length_encodeFileNameInner_le short
  have next := length_encodeFileNameInner_le nextShort
  rw [fields, decodeFields_encodeFields]
  · by_cases none : first = [] <;> by_cases nothing : second = [] <;>
      simp only [none, nothing, ne_eq, not_true_eq_false, not_false_eq_true, if_true, if_false,
        List.nil_append, List.append_nil, List.cons_append, List.foldlM_nil, List.foldlM_cons,
        request.field_first _ short, request.field_second distinct _ nextShort] <;> rfl
  · intro field member
    rw [List.mem_append] at member
    rcases member with member | member <;> split at member <;> simp at member <;> subst member
    · exact inner.trans_lt (by decide)
    · exact next.trans_lt (by decide)

end TwoNames

end Requests

/-! ## Responses -/

/-- The sizes of an Unsigned32. -/
def FileSize (size : Int64) : Prop := 0 ≤ size.toInt ∧ size.toInt < 2 ^ 32

/-- A known time, or the zero time that stands for an unknown one. -/
def FileTime (time : Instant) : Prop := time.isZero ∨ time.InCalendar

section Responses

variable {layout : TimeLayout} {size : Int64} {time : Instant}

theorem fileSize_iff : FileSize size ↔ ¬(size < 0 ∨ size > 4294967295) := by
  rw [not_or, Int64.lt_iff_toInt_lt, gt_iff_lt, Int64.lt_iff_toInt_lt, not_lt, not_lt, FileSize,
    show (4294967295 : Int64).toInt = 4294967295 by decide, show (0 : Int64).toInt = 0 by decide]
  omega

theorem FileSize.toUInt32 (range : FileSize size) :
    Int64.ofNat size.toUInt64.toUInt32.toNat = size := by
  obtain ⟨nonneg, below⟩ := range
  apply Int64.toInt_inj.mp
  have wide : size.toUInt64.toNat = size.toInt.toNat :=
    Int64.toNat_toUInt64_of_le (Int64.le_iff_toInt_le.mpr nonneg)
  rw [UInt64.toNat_toUInt32, wide, Nat.mod_eq_of_lt (by omega), Int64.toInt_ofNat_of_lt (by omega)]
  omega

/-- The attributes of a file as fields. -/
def attributeFields (layout : TimeLayout) (size : Int64) (time : Instant) : List (UInt8 × Octets) :=
  (0x80, encodeUint32 size.toUInt64.toUInt32) ::
    if time.isZero then [] else [(0x81, layout.format time)]

theorem encodeFileAttributes_eq (range : FileSize size) :
    encodeFileAttributes layout size time =
      .ok (encodeFields (attributeFields layout size time)) := by
  rw [encodeFileAttributes, if_neg (fileSize_iff.mp range), attributeFields]
  split <;> simp

theorem length_attributeFields_le (lawful : layout.Lawful) (size : Int64) (time : Instant) :
    (∀ field ∈ attributeFields layout size time, field.2.length ≤ 24) ∧
      (encodeFields (attributeFields layout size time)).length ≤ 33 := by
  have number := (encodeUint32_spec size.toUInt64.toUInt32).2.2
  have text := lawful.length_format time
  have numberSize := length_encodeTLV_short 0x80
    (show (encodeUint32 size.toUInt64.toUInt32).length < 128 by omega)
  have textSize := length_encodeTLV_short 0x81 (show (layout.format time).length < 128 by omega)
  unfold attributeFields
  split
  · refine ⟨fun field member => ?_, ?_⟩
    · obtain rfl := List.mem_singleton.mp member
      exact number.trans (by decide)
    · rw [encodeFields_cons, encodeFields_nil, List.append_nil, numberSize]
      omega
  · refine ⟨fun field member => ?_, ?_⟩
    · rcases List.mem_cons.mp member with rfl | member
      · exact number.trans (by decide)
      · obtain rfl := List.mem_singleton.mp member
        exact text
    · rw [encodeFields_cons, encodeFields_cons, encodeFields_nil, List.append_nil,
        List.length_append, numberSize, textSize]
      omega

theorem FileTime.shows (known : FileTime time) (lawful : layout.Lawful) :
    layout.Shows time time := by
  unfold TimeLayout.Shows
  split
  · next zero => exact Instant.eq_zero_of_isZero zero
  · next nonzero => exact lawful.parse_format time (known.resolve_left nonzero)

theorem parseFileAttributes_shows (lawful : layout.Lawful) (range : FileSize size)
    {shown : Instant} (shows : layout.Shows time shown) {result : FileOpenResult}
    (unset : result.lastModified = .zero) :
    parseFileAttributes layout (encodeFields (attributeFields layout size time)) result =
      .ok ({ result with size := size, lastModified := shown }, true) := by
  have short := (length_attributeFields_le lawful size time).1
  rw [parseFileAttributes, decodeFields_encodeFields _ _ fun field member =>
    (short field member).trans_lt (by decide), attributeFields]
  unfold TimeLayout.Shows at shows
  by_cases zero : time.isZero
  · rw [if_pos zero] at shows
    subst shows
    simp only [zero, if_true, List.foldlM_cons, List.foldlM_nil, fileAttributesField,
      decodeUnsigned_encodeUint32, range.toUInt32]
    rw [← unset]
    rfl
  · rw [if_neg zero] at shows
    simp only [zero, Bool.false_eq_true, if_true, if_false, List.foldlM_cons, List.foldlM_nil,
      fileAttributesField, decodeUnsigned_encodeUint32, range.toUInt32,
      show ¬(0x81 : UInt8) = 0x80 by decide, shows]
    rfl

/-- The response to FileOpen is short, and read back whenever its time can be. -/
theorem fileOpenResponse_shows (lawful : layout.Lawful) (range : FileSize size) (time : Instant)
    (frsmID : Int32) :
    ∃ payload, marshalFileOpenResponse layout frsmID size time = .ok payload ∧
      payload.length ≤ 50 ∧ ∀ shown, layout.Shows time shown →
        unmarshalFileOpenResponse layout payload = .ok ⟨frsmID, size, shown⟩ := by
  have number := length_encodeInt_le frsmID.toInt64
  have attributes := (length_attributeFields_le lawful size time).2
  have numberSize := length_encodeTLV_short 0x80 (number.trans_lt (by decide))
  have attributesSize := length_encodeTLV_short 0xa1 (attributes.trans_lt (by decide))
  rw [marshalFileOpenResponse, encodeFileAttributes_eq range]
  refine ⟨_, rfl, ?_, fun shown shows => ?_⟩
  · rw [List.length_append, numberSize, attributesSize]
    omega
  · rw [unmarshalFileOpenResponse, decodeFields_pair _ _ (number.trans_lt (by decide))
      (attributes.trans_lt (by decide))]
    simp only [fileOpenResponseField, if_true, decodeInt32_encodeInt, Except.bind,
      show ¬(0xa1 : UInt8) = 0x80 by decide, if_false,
      parseFileAttributes_shows lawful range shows]
    rfl

theorem fileReadResponse_roundTrip {data : Octets} (short : data.length < maxContent)
    (moreFollows : Bool) :
    unmarshalFileReadResponse (marshalFileReadResponse data moreFollows) =
      .ok ⟨data, moreFollows⟩ := by
  cases moreFollows with
  | true =>
    rw [marshalFileReadResponse, unmarshalFileReadResponse, if_pos rfl, List.append_nil,
      decodeFields_single _ _ 0x80 short]
    rfl
  | false =>
    rw [marshalFileReadResponse, unmarshalFileReadResponse, if_neg Bool.false_ne_true,
      decodeFields_pair _ _ short (by decide)]
    rfl

/-! ## Directories -/

structure FileDirectoryEntry.Valid (entry : FileDirectoryEntry) : Prop where
  some : entry.fileName ≠ []
  short : entry.fileName.length ≤ 1024
  size : FileSize entry.size
  time : FileTime entry.lastModified

/-- The content of an entry. -/
def entryContent (layout : TimeLayout) (entry : FileDirectoryEntry) : Octets :=
  encodeFileNameTag 0xa0 entry.fileName ++
    encodeTLV 0xa1 (encodeFields (attributeFields layout entry.size entry.lastModified))

/-- The entries as fields. -/
def entryFields (layout : TimeLayout) (entries : List FileDirectoryEntry) : List (UInt8 × Octets) :=
  (entries.map (entryContent layout)).map fun content => (0x30, content)

theorem encodeDirectoryEntries_eq (quote : Octets → String) {entries : List FileDirectoryEntry}
    (valid : ∀ entry ∈ entries, entry.Valid) :
    encodeDirectoryEntries layout quote entries =
      .ok (encodeFields (entryFields layout entries)) := by
  unfold encodeDirectoryEntries
  induction entries with
  | nil => rfl
  | cons entry entries ih =>
    have rest := ih fun other member => valid other (List.mem_cons_of_mem _ member)
    have attrs := @encodeFileAttributes_eq layout _ entry.lastModified
      (valid entry List.mem_cons_self).size
    rw [encodeAll, encodeDirectoryEntry]
    simp only [attrs, rest]
    rfl

theorem directoryEntry_roundTrip (lawful : layout.Lawful) {entry : FileDirectoryEntry}
    (valid : entry.Valid) (context : FileDirectoryEntry → String) :
    decodeFields context (directoryEntryField layout) (entryContent layout entry) {} =
      .ok entry := by
  have inner := length_encodeFileNameInner_le valid.short
  have attributes := (length_attributeFields_le lawful entry.size entry.lastModified).2
  rw [entryContent, encodeFileNameTag,
    decodeFields_pair _ _ (inner.trans_lt (by decide)) (attributes.trans_lt (by decide))]
  simp only [directoryEntryField, if_true, decodeFileName_inner valid.short, Except.bind,
    show ¬(0xa1 : UInt8) = 0xa0 by decide, if_false,
    parseFileAttributes_shows lawful valid.size (valid.time.shows lawful)]

theorem length_entryContent_lt (lawful : layout.Lawful) {entry : FileDirectoryEntry}
    (valid : entry.Valid) : (entryContent layout entry).length < maxContent := by
  have name := length_encodeFileNameTag_le 0xa0 valid.short
  have attributes := (length_attributeFields_le lawful entry.size entry.lastModified).2
  have record := length_encodeTLV_short 0xa1 (attributes.trans_lt (by decide))
  rw [entryContent, List.length_append, record, maxContent]
  omega

variable {entries : List FileDirectoryEntry}

theorem parseDirectoryEntries_encode (lawful : layout.Lawful)
    (few : entries.length ≤ maxDirectoryEntries) (valid : ∀ entry ∈ entries, entry.Valid) :
    parseDirectoryEntries layout (encodeFields (entryFields layout entries)) = .ok entries := by
  have short : ∀ content ∈ entries.map (entryContent layout), content.length < maxContent := by
    intro content member
    obtain ⟨entry, known, rfl⟩ := List.mem_map.mp member
    exact length_entryContent_lt lawful (valid entry known)
  have collects : ∀ (found : List FileDirectoryEntry) (content : Octets) result,
      found.length < maxDirectoryEntries →
      (directoryEntriesField layout found 0x30 content = .ok result ↔
        ∃ parsed, decodeFields (fun _ => "pdu: directory entry field: ")
            (directoryEntryField layout) content {} = .ok parsed ∧
          result = found ++ [parsed]) := by
    intro found content result room
    rw [directoryEntriesField, if_neg (by simp)]
    cases decodeFields (fun _ => "pdu: directory entry field: ") (directoryEntryField layout)
      content {} with
    | error text => simp
    | ok parsed =>
      have fits : ¬(found ++ [parsed]).length > maxDirectoryEntries := by
        rw [List.length_append, List.length_singleton]
        exact not_lt.mpr room
      simp only [fits, if_false]
      simp [eq_comm]
  rw [parseDirectoryEntries, entryFields,
    decodeFields_collect_iff _ collects (by simpa using few) short, List.forall₂_map_left_iff]
  exact List.forall₂_same.mpr fun entry member =>
    directoryEntry_roundTrip lawful (valid entry member) _

/-- The explicit form is unwrapped. -/
theorem unwrapDirectoryList_explicit
    (short : (encodeFields (entryFields layout entries)).length < maxContent) :
    unwrapDirectoryList (encodeTLV 0x30 (encodeFields (entryFields layout entries))) =
      encodeFields (entryFields layout entries) := by
  have record := decodeTLVAt_alone 0x30 short
  have first : ¬(encodeFields (entryFields layout entries) ≠ [] ∧
      (encodeFields (entryFields layout entries)).head? ≠ some 0x30) := by
    rintro ⟨some, other⟩
    cases entries with
    | nil => exact some rfl
    | cons entry entries => exact other rfl
  rw [unwrapDirectoryList, record]
  simp only [length_encodeTLV, ne_eq, not_true_eq_false, or_self, if_false]
  exact if_neg first

/-- The implicit form is left as it is. -/
theorem unwrapDirectoryList_implicit
    (short : (encodeFields (entryFields layout entries)).length < maxContent) :
    unwrapDirectoryList (encodeFields (entryFields layout entries)) =
      encodeFields (entryFields layout entries) := by
  cases entries with
  | nil => rfl
  | cons entry entries =>
    have shown : encodeFields (entryFields layout (entry :: entries)) =
        encodeTLV 0x30 (entryContent layout entry) ++
          encodeFields (entryFields layout entries) := rfl
    have first : (entryContent layout entry).length < maxContent := by
      rw [shown, List.length_append] at short
      exact (length_le_encodeTLV 0x30 _).trans_lt ((Nat.le_add_right _ _).trans_lt short)
    have record := decodeTLVAt_first 0x30 first (encodeFields (entryFields layout entries))
    rw [unwrapDirectoryList, shown, record]
    dsimp only
    split
    · rfl
    · -- an entry starts with its file name, not with a SEQUENCE
      rw [if_pos ⟨List.cons_ne_nil _ _, show (some 0xa0 : Option UInt8) ≠ some 0x30 by decide⟩]

theorem fileDirectoryResponse_read (lawful : layout.Lawful)
    (few : entries.length ≤ maxDirectoryEntries) (valid : ∀ entry ∈ entries, entry.Valid)
    {list : Octets} (short : list.length < maxContent)
    (unwrapped : unwrapDirectoryList list = encodeFields (entryFields layout entries))
    (moreFollows : Bool) :
    unmarshalFileDirectoryResponse layout
        (encodeTLV 0xa0 list ++ if moreFollows then encodeTLV 0x81 [0xff] else []) =
      .ok (entries, moreFollows) := by
  have parsed := parseDirectoryEntries_encode lawful few valid
  cases moreFollows with
  | true =>
    rw [unmarshalFileDirectoryResponse, if_pos rfl, decodeFields_pair _ _ short (by decide)]
    simp only [fileDirectoryResponseField, if_true, unwrapped, parsed, Except.bind]
    rfl
  | false =>
    rw [unmarshalFileDirectoryResponse, if_neg Bool.false_ne_true, List.append_nil,
      decodeFields_single _ _ 0xa0 short]
    simp only [fileDirectoryResponseField, if_true, unwrapped, parsed]

end Responses

/-! ## Agreement -/

section Arrival

variable (invokeID : UInt32) {first second : Octets}

theorem fileOpenRequest_arrives (some : first ≠ []) (short : first.length ≤ 1024)
    (position : UInt32) :
    ArrivesAs (marshalFileOpenRequest invokeID first position) invokeID tagNumFileOpen
      unmarshalFileOpenRequest ⟨first, position⟩ := by
  refine arrivesAs_marshalConfirmedRequest (by decide) ?_
    (unmarshalFileOpenRequest_encode some short position)
  have name := length_encodeFileNameTag_le 0xa0 short
  have number := (encodeUint32_spec position).2.2
  have record := length_encodeTLV_short 0x81 (number.trans_lt (by decide))
  rw [encodeFileName, List.length_append, record, maxContent]
  omega

/-- The file state machine is named by an integer alone. -/
theorem frsmID_arrives {tagNum : Int64} {context : String} (small : tagNum.toInt < 2 ^ 31)
    {unmarshal : Octets → Except String Int32}
    (reads : ∀ data, unmarshal data =
      match decodeInt32 data with
      | .error text => .error (context ++ text)
      | .ok frsmID => .ok frsmID) (frsmID : Int32) :
    ArrivesAs (marshalConfirmedRequest invokeID tagNum false (encodeInt frsmID.toInt64)) invokeID
      tagNum unmarshal frsmID := by
  refine arrivesAs_marshalConfirmedRequest small
    ((length_encodeInt_le frsmID.toInt64).trans_lt (by decide)) ?_
  rw [reads, decodeInt32_encodeInt]

theorem length_twoNames_lt {firstTag secondTag : UInt8} (short : first.length ≤ 1024)
    (nextShort : second.length ≤ 1024) :
    (encodeFileNameTag firstTag first ++ encodeFileNameTag secondTag second).length <
      maxContent := by
  have name := length_encodeFileNameTag_le firstTag short
  have next := length_encodeFileNameTag_le secondTag nextShort
  rw [List.length_append, maxContent]
  omega

theorem fileRenameRequest_arrives (some : first ≠ []) (short : first.length ≤ 1024)
    (other : second ≠ []) (nextShort : second.length ≤ 1024) :
    ArrivesAs (marshalFileRenameRequest invokeID first second) invokeID tagNumFileRename
      unmarshalFileRenameRequest ⟨first, second⟩ := by
  refine arrivesAs_marshalConfirmedRequest (by decide) (length_twoNames_lt short nextShort) ?_
  have names := fileRenameNames.decodeFields_encode (by decide)
    (fun _ => "pdu: file-rename request: ") short nextShort
  rw [unmarshalFileRenameRequest]
  simp only [fileRenameNames] at names ⊢
  simp only [names, some, other, or_self, if_false]

theorem obtainFileRequest_arrives (some : first ≠ []) (short : first.length ≤ 1024)
    (other : second ≠ []) (nextShort : second.length ≤ 1024) :
    ArrivesAs (marshalObtainFileRequest invokeID first second) invokeID tagNumObtainFile
      unmarshalObtainFileRequest ⟨first, second⟩ := by
  refine arrivesAs_marshalConfirmedRequest (by decide) (length_twoNames_lt short nextShort) ?_
  have names := obtainFileNames.decodeFields_encode (by decide)
    (fun _ => "pdu: obtain-file request: ") short nextShort
  rw [unmarshalObtainFileRequest]
  simp only [obtainFileNames] at names ⊢
  simp only [names, some, other, or_self, if_false]

theorem fileDirectoryRequest_arrives (short : first.length ≤ 1024)
    (nextShort : second.length ≤ 1024) :
    ArrivesAs (marshalFileDirectoryRequest invokeID first second) invokeID tagNumFileDirectory
      unmarshalFileDirectoryRequest ⟨first, second⟩ := by
  refine arrivesAs_marshalConfirmedRequest (by decide) ?_ ?_
  · refine lt_of_le_of_lt ?_ (@length_twoNames_lt first second 0xa0 0xa1 short nextShort)
    rw [List.length_append, List.length_append]
    refine Nat.add_le_add ?_ ?_ <;> split <;> simp
  · have names := fileDirectoryNames.decodeFields_encode_optional (by decide)
      (fun _ => "pdu: file-directory request: ") short nextShort
    rw [unmarshalFileDirectoryRequest]
    simp only [fileDirectoryNames] at names ⊢
    simp only [names]

end Arrival

/-- Every decoder of the file services inverts the encoder on the other side, and a directory list
without the inner SEQUENCE OF is read like one with it. -/
theorem fileCodecs_agree (layout : TimeLayout) (lawful : layout.Lawful)
    (quote : Octets → String) (invokeID : UInt32) :
    (∀ name position, name ≠ [] → name.length ≤ 1024 →
      ArrivesAs (marshalFileOpenRequest invokeID name position) invokeID tagNumFileOpen
        unmarshalFileOpenRequest ⟨name, position⟩) ∧
    (∀ frsmID, ArrivesAs (marshalFileReadRequest invokeID frsmID) invokeID tagNumFileRead
      unmarshalFileReadRequest frsmID) ∧
    (∀ frsmID, ArrivesAs (marshalFileCloseRequest invokeID frsmID) invokeID tagNumFileClose
      unmarshalFileCloseRequest frsmID) ∧
    (∀ name, name.length ≤ 1024 →
      ArrivesAs (marshalFileDeleteRequest invokeID name) invokeID tagNumFileDelete
        unmarshalFileDeleteRequest name) ∧
    (∀ current new, current ≠ [] → current.length ≤ 1024 → new ≠ [] → new.length ≤ 1024 →
      ArrivesAs (marshalFileRenameRequest invokeID current new) invokeID tagNumFileRename
        unmarshalFileRenameRequest ⟨current, new⟩) ∧
    (∀ source dest, source ≠ [] → source.length ≤ 1024 → dest ≠ [] → dest.length ≤ 1024 →
      ArrivesAs (marshalObtainFileRequest invokeID source dest) invokeID tagNumObtainFile
        unmarshalObtainFileRequest ⟨source, dest⟩) ∧
    (∀ spec after, spec.length ≤ 1024 → after.length ≤ 1024 →
      ArrivesAs (marshalFileDirectoryRequest invokeID spec after) invokeID tagNumFileDirectory
        unmarshalFileDirectoryRequest ⟨spec, after⟩) ∧
    (∀ frsmID size time, FileSize size → FileTime time →
      ∃ payload, marshalFileOpenResponse layout frsmID size time = .ok payload ∧
        unmarshalFileOpenResponse layout payload = .ok ⟨frsmID, size, time⟩) ∧
    (∀ data moreFollows, data.length < 2 ^ 23 →
      unmarshalFileReadResponse (marshalFileReadResponse data moreFollows) =
        .ok ⟨data, moreFollows⟩) ∧
    ∀ entries moreFollows, entries.length ≤ 10000 → (∀ entry ∈ entries, entry.Valid) →
      ∃ list, encodeDirectoryEntries layout quote entries = .ok list ∧
        ((encodeTLV 0x30 list).length < 2 ^ 24 →
          (∃ payload, marshalFileDirectoryResponse layout quote entries moreFollows = .ok payload ∧
            unmarshalFileDirectoryResponse layout payload = .ok (entries, moreFollows)) ∧
          unmarshalFileDirectoryResponse layout
              (encodeTLV 0xa0 list ++ if moreFollows then encodeTLV 0x81 [0xff] else []) =
            .ok (entries, moreFollows)) := by
  refine ⟨fun _ position some short => fileOpenRequest_arrives invokeID some short position,
    frsmID_arrives invokeID (by decide) fun _ => rfl,
    frsmID_arrives invokeID (by decide) fun _ => rfl, fun _ short => ?_,
    fun _ _ => fileRenameRequest_arrives invokeID, fun _ _ => obtainFileRequest_arrives invokeID,
    fun _ _ => fileDirectoryRequest_arrives invokeID, fun frsmID size time range known => ?_,
    fun _ moreFollows short => fileReadResponse_roundTrip (short.trans (by decide)) moreFollows,
    fun entries moreFollows few valid => ?_⟩
  · exact arrivesAs_marshalConfirmedRequest (by decide)
      ((length_encodeFileNameInner_le short).trans_lt (by decide)) (decodeFileName_inner short)
  · obtain ⟨payload, encoded, -, shown⟩ := fileOpenResponse_shows lawful range time frsmID
    exact ⟨payload, encoded, shown time (known.shows lawful)⟩
  · have encoded := @encodeDirectoryEntries_eq layout quote _ valid
    refine ⟨_, encoded, fun short => ?_⟩
    have inner := (length_le_encodeTLV 0x30 _).trans_lt short
    refine ⟨⟨_, by rw [marshalFileDirectoryResponse, encoded], ?_⟩, ?_⟩
    · exact fileDirectoryResponse_read lawful few valid short
        (unwrapDirectoryList_explicit inner) moreFollows
    · exact fileDirectoryResponse_read lawful few valid inner
        (unwrapDirectoryList_implicit inner) moreFollows

/-- A layout that writes the seconds since the year 1 in fifteen octets. -/
def secondsLayout : TimeLayout where
  format time := beOctets 15 (time.unix + 62135596800).toNat
  parse text := .ok (.ofUnix ((beNat text : Int) - 62135596800) 0)

theorem secondsLayout_lawful : secondsLayout.Lawful where
  parse_format := by
    rintro ⟨unix, nanosecond, below⟩ ⟨whole, early, late⟩
    change -62135596800 ≤ unix at early
    change unix ≤ 253402300799 at late
    obtain rfl : nanosecond = 0 := whole
    have fits : (unix + 62135596800).toNat < 256 ^ 15 := by omega
    refine congrArg Except.ok (Instant.ext ?_ rfl)
    change ((beNat (beOctets 15 (unix + 62135596800).toNat) : Int) - 62135596800) + 0 / 1000000000 =
      unix
    rw [beNat_beOctets_of_lt fits]
    omega
  length_format time := by
    change (beOctets 15 (time.unix + 62135596800).toNat).length ≤ 24
    rw [length_beOctets]
    decide

/-- The directory of one file `f` of five octets, last modified at the Unix epoch. -/
def sampleDirectory : List FileDirectoryEntry := [⟨[0x66], 5, .ofUnix 0 0⟩]

theorem fileCodecs_agree_sampleDirectory :
    ArrivesAs (marshalFileOpenRequest 7 [0x66] 3) 7 tagNumFileOpen unmarshalFileOpenRequest
      ⟨[0x66], 3⟩ ∧
    ∃ list, encodeDirectoryEntries secondsLayout (fun _ => "") sampleDirectory = .ok list ∧
      unmarshalFileDirectoryResponse secondsLayout (encodeTLV 0xa0 list) =
        .ok (sampleDirectory, false) := by
  obtain ⟨fileOpen, -, -, -, -, -, -, -, -, directory⟩ :=
    fileCodecs_agree secondsLayout secondsLayout_lawful (fun _ => "") 7
  refine ⟨fileOpen [0x66] 3 (by decide) (by decide), ?_⟩
  obtain ⟨list, encoded, agree⟩ := directory sampleDirectory false (by decide) (by
    intro entry member
    obtain rfl := List.mem_singleton.mp member
    exact ⟨by decide, by decide, ⟨by decide, by decide⟩, .inr ⟨rfl, by decide, by decide⟩⟩)
  have short : (encodeTLV 0x30 list).length < 2 ^ 24 := by
    cases encoded
    decide
  refine ⟨list, encoded, ?_⟩
  simpa using (agree short).2

end GoMms.Pdu
