import GoMms.Berutil.Records
import GoMms.Codec.Reply
import GoMms.Invoke.Tracker
import GoMms.Serverconn.Conn

/-!
# Dispatch of replies

`dispatchConfirmed` of the client completes the request whose invoke ID stands at the front of a
reply, and only then is the reply decoded. The decoders of errors and rejects take the invoke ID
from anywhere in the reply, and from the last of several. The two agree on the replies that lead
with the ID the decoder reads (`Leads`).
-/

namespace GoMms.Mms

open Berutil Codec Invoke

/-- `int(kind)`. -/
def pduKindNumber : PduKind → Int64
  | .confirmedRequest => 0
  | .confirmedResponse => 1
  | .confirmedError => 2
  | .unconfirmed => 3
  | .reject => 4
  | .initiateRequest => 5
  | .initiateResponse => 6
  | .initiateError => 7
  | .concludeRequest => 8
  | .concludeResponse => 9
  | .concludeError => 10
  | .cancelRequest => 11
  | .cancelResponse => 12
  | .cancelError => 13

/-- `dispatchConfirmed`, up to the send on the channel of the request it completes. A reply
without an invoke ID at its front is dropped. -/
def dispatchConfirmed (system : System) (kind : PduKind) (content : Octets) : System :=
  match extractInvokeID content with
  | .error _ => system
  | .ok invokeID =>
    completeLocked system invokeID ⟨invokeID, pduKindNumber kind, content, none⟩

/-! ## Completed requests -/

section Pending

variable {system : System} {id : UInt32}

theorem mem_pending_completeLocked (pending : id ∈ system.tracker.pending) (other : UInt32)
    (response : Response) :
    id ∈ (completeLocked system other response).tracker.pending ↔ id ≠ other := by
  unfold completeLocked takeOne
  cases found : system.tracker.pending.lookup other with
  | none =>
    refine iff_of_true pending ?_
    rintro rfl
    exact AList.lookup_eq_none.mp found pending
  | some channel =>
    simp only [AList.mem_erase]
    exact ⟨And.left, fun different => ⟨different, pending⟩⟩

/-- Dispatch completes a pending request if its ID is the one at the front. -/
theorem completes_dispatchConfirmed_iff (pending : id ∈ system.tracker.pending) (kind : PduKind)
    (content : Octets) :
    id ∉ (dispatchConfirmed system kind content).tracker.pending ↔
      extractInvokeID content = .ok id := by
  unfold dispatchConfirmed
  cases extractInvokeID content with
  | error text => simp [pending]
  | ok invokeID =>
    rw [mem_pending_completeLocked pending, not_not, Except.ok.injEq]
    exact eq_comm

end Pending

/-! ## The decoders -/

/-- The reply leads with an invoke ID, and if it has others, the last of them is the same. -/
def Leads (content : Octets) : Prop :=
  ∃ first rest, recordsOf content = .ok ((0x80, first) :: rest) ∧
    ∀ last, lastRecord 0x80 rest = some last → decodeUnsigned last = decodeUnsigned first

/-- What a decoder that reads `id` tells about the reply: it consists of records, none of them
an INTEGER, and `id` is in the last invoke ID. -/
def Names (content : Octets) (id : UInt32) : Prop :=
  ∃ records last, recordsOf content = .ok records ∧ lastRecord 0x80 records = some last ∧
    decodeUnsigned last = .ok id ∧ ∀ record ∈ records, record.1 ≠ 0x02

theorem lastRecord_cons_self (tag : UInt8) (first : Octets) (rest : List (UInt8 × Octets)) :
    lastRecord tag ((tag, first) :: rest) = some ((lastRecord tag rest).getD first) := by
  unfold lastRecord
  rw [List.filter_cons_of_pos (by simp), List.getLast?_cons]
  cases (rest.filter fun record => record.1 = tag).getLast? <;> rfl

variable {content : Octets}

variable {id : UInt32} {data : Octets} {result parsed : ConfirmedError}
  {records : List (UInt8 × Octets)} {record : UInt8 × Octets}

/-- The ID that dispatch takes from a reply is the one in its first record. -/
theorem extractInvokeID_iff {tlv : Tlv} (filled : content ≠ [])
    (read : decodeTLVAt content 0 = .ok tlv) :
    extractInvokeID content = .ok id ↔
      (tlv.tag = 0x02 ∨ tlv.tag = 0x80) ∧ decodeUnsigned tlv.content = .ok id := by
  have long : content.length ≠ 0 := fun empty => filled (List.length_eq_zero_iff.mp empty)
  simp only [extractInvokeID, if_neg long, read]
  by_cases known : tlv.tag = 0x02 ∨ tlv.tag = 0x80
  · cases decodeUnsigned tlv.content with
    | error text => simp [known]
    | ok other => simp [known]
  · simp [known]

/-- Dispatch finds the ID that the decoder reads if the reply leads with it. -/
theorem Names.extractInvokeID_iff_leads (names : Names content id) :
    extractInvokeID content = .ok id ↔ Leads content := by
  obtain ⟨records, last, divided, isLast, decoded, noInteger⟩ := names
  cases records with
  | nil => cases isLast
  | cons record rest =>
    obtain ⟨tag, first⟩ := record
    obtain ⟨filled, consumed, read⟩ := decodeTLVAt_of_recordsOf divided
    have integer : tag ≠ 0x02 := noInteger (tag, first) List.mem_cons_self
    rw [extractInvokeID_iff filled read]
    constructor
    · rintro ⟨known, value⟩
      obtain rfl : tag = 0x80 := known.resolve_left integer
      refine ⟨first, rest, divided, fun other isOther => ?_⟩
      rw [lastRecord_cons_self, isOther, Option.getD_some, Option.some.injEq] at isLast
      rw [isLast, decoded]
      exact value.symm
    · rintro ⟨start, others, same, agree⟩
      rw [divided] at same
      cases same
      refine ⟨.inr rfl, ?_⟩
      rw [lastRecord_cons_self] at isLast
      cases later : lastRecord 0x80 rest with
      | none =>
        rw [later, Option.getD_none, Option.some.injEq] at isLast
        rw [isLast]
        exact decoded
      | some other =>
        rw [later, Option.getD_some, Option.some.injEq] at isLast
        rw [← agree other later, isLast]
        exact decoded

/-- What the records seen so far tell about the invoke ID. -/
structure Seen (records : List (UInt8 × Octets)) (present : Bool) (id : UInt32) : Prop where
  last : present = true → ∃ last, lastRecord 0x80 records = some last ∧ decodeUnsigned last = .ok id
  noInteger : ∀ record ∈ records, record.1 ≠ 0x02

namespace Seen

variable {records : List (UInt8 × Octets)} {present : Bool} {id : UInt32}
  {record : UInt8 × Octets}

theorem start : Seen [] false id :=
  ⟨fun none => absurd none Bool.false_ne_true, fun _ member => absurd member List.not_mem_nil⟩

theorem invokeID (seen : Seen records present id) (isID : record.1 = 0x80) {value : UInt32}
    (decoded : decodeUnsigned record.2 = .ok value) : Seen (records ++ [record]) true value := by
  refine ⟨fun _ => ⟨record.2, ?_, decoded⟩, ?_⟩
  · rw [lastRecord_append, if_pos isID]
  · rw [List.forall_mem_append]
    exact ⟨seen.noInteger, by simp [isID]⟩

theorem other (seen : Seen records present id) (notID : record.1 ≠ 0x80)
    (notInteger : record.1 ≠ 0x02) : Seen (records ++ [record]) present id := by
  refine ⟨fun here => ?_, ?_⟩
  · rw [lastRecord_append, if_neg notID]
    exact seen.last here
  · rw [List.forall_mem_append]
    exact ⟨seen.noInteger, List.forall_mem_singleton.mpr notInteger⟩

theorem names (divided : recordsOf content = .ok records) (seen : Seen records true id) :
    Names content id := by
  obtain ⟨last, isLast, value⟩ := seen.last rfl
  exact ⟨records, last, divided, isLast, value, seen.noInteger⟩

end Seen

/-! ## Errors -/

theorem invokeID_parseErrorClass (ok : parseErrorClass data result = .ok parsed) :
    parsed.invokeID = result.invokeID := by
  unfold parseErrorClass at ok
  split_ifs at ok
  · cases ok
    rfl
  · split at ok
    · cases ok
    · split_ifs at ok
      split at ok
      · cases ok
      · cases ok
        rfl

theorem invokeID_parseServiceError (ok : parseServiceError data result = .ok parsed) :
    parsed.invokeID = result.invokeID := by
  unfold parseServiceError at ok
  split at ok
  · cases ok
  · cases ok
    rfl
  · exact invokeID_parseErrorClass ok

theorem seen_confirmedErrorField {state next : ConfirmedError × Bool}
    (seen : Seen records state.2 state.1.invokeID)
    (stored : confirmedErrorField state record.1 record.2 = .ok next) :
    Seen (records ++ [record]) next.2 next.1.invokeID := by
  unfold confirmedErrorField at stored
  split_ifs at stored with isID isError
  · split at stored
    · cases stored
    rename_i id decoded
    cases stored
    exact seen.invokeID isID decoded
  · split at stored
    · cases stored
    rename_i result parsed
    cases stored
    rw [invokeID_parseServiceError parsed]
    exact seen.other isID (by rw [isError]; decide)

theorem names_of_decodeConfirmedError {error : ConfirmedError}
    (decoded : decodeConfirmedError content = .ok error) : Names content error.invokeID := by
  unfold decodeConfirmedError at decoded
  split_ifs at decoded
  split at decoded
  · cases decoded
  rename_i result present fields
  split_ifs at decoded with here
  cases decoded
  obtain ⟨records, divided, folded⟩ := decodeFields_ok_iff.mp fields
  have seen := foldlM_invariant
    (fun records (state : ConfirmedError × Bool) => Seen records state.2 state.1.invokeID)
    (fun _ _ _ _ before stored => seen_confirmedErrorField before stored) Seen.start folded
  rw [here] at seen
  exact Seen.names divided seen

/-! ## Rejects -/

theorem seen_rejectField {state next : RejectPDU × Bool}
    (seen : Seen records state.1.hasInvokeID state.1.invokeID)
    (stored : rejectField state record.1 record.2 = .ok next) :
    Seen (records ++ [record]) next.1.hasInvokeID next.1.invokeID := by
  unfold rejectField at stored
  split_ifs at stored with isID isReason
  · split at stored
    · cases stored
    rename_i id decoded
    cases stored
    exact seen.invokeID isID decoded
  · split at stored
    · cases stored
    · cases stored
      refine seen.other isID fun integer => ?_
      rw [integer] at isReason
      exact absurd isReason.1 (by decide)

theorem names_of_decodeRejectPDU {reject : RejectPDU}
    (decoded : decodeRejectPDU content = .ok reject) (present : reject.hasInvokeID = true) :
    Names content reject.invokeID := by
  unfold decodeRejectPDU at decoded
  split_ifs at decoded
  split at decoded
  · cases decoded
  rename_i result reasoned fields
  split_ifs at decoded
  cases decoded
  obtain ⟨records, divided, folded⟩ := decodeFields_ok_iff.mp fields
  have seen := foldlM_invariant
    (fun records (state : RejectPDU × Bool) =>
      Seen records state.1.hasInvokeID state.1.invokeID)
    (fun _ _ _ _ before stored => seen_rejectField before stored) Seen.start folded
  rw [present] at seen
  exact Seen.names divided seen

/-! ## Agreement -/

/-- Dispatch takes from an error or a reject the invoke ID that its decoder reads, and completes
the request it names, if and only if the reply leads with that ID. -/
theorem dispatch_agrees_iff (content : Octets) :
    (∀ error, decodeConfirmedError content = .ok error →
      (extractInvokeID content = .ok error.invokeID ↔ Leads content) ∧
      ∀ system : System, error.invokeID ∈ system.tracker.pending →
        (error.invokeID ∉ (dispatchConfirmed system .confirmedError content).tracker.pending ↔
          Leads content)) ∧
    ∀ reject, decodeRejectPDU content = .ok reject → reject.hasInvokeID = true →
      (extractInvokeID content = .ok reject.invokeID ↔ Leads content) ∧
      ∀ system : System, reject.invokeID ∈ system.tracker.pending →
        (reject.invokeID ∉ (dispatchConfirmed system .reject content).tracker.pending ↔
          Leads content) := by
  constructor
  · intro error decoded
    have agrees := (names_of_decodeConfirmedError decoded).extractInvokeID_iff_leads
    exact ⟨agrees, fun system pending =>
      (completes_dispatchConfirmed_iff pending _ _).trans agrees⟩
  · intro reject decoded present
    have agrees := (names_of_decodeRejectPDU decoded present).extractInvokeID_iff_leads
    exact ⟨agrees, fun system pending =>
      (completes_dispatchConfirmed_iff pending _ _).trans agrees⟩

/-- A tracker on which the requests 1 and 2 are pending. -/
def twoPending : System :=
  { System.new 0 with
    tracker := { newTracker 0 with
      pending := ((∅ : AList fun _ : UInt32 => Nat).insert 1 0).insert 2 1 } }

theorem dispatch_agrees_reject :
    decodeRejectPDU [0x80, 0x01, 0x01, 0x81, 0x01, 0x00] = .ok ⟨1, true, 1, 0⟩ ∧
      extractInvokeID [0x80, 0x01, 0x01, 0x81, 0x01, 0x00] = .ok 1 ∧
      1 ∉ (dispatchConfirmed twoPending .reject
        [0x80, 0x01, 0x01, 0x81, 0x01, 0x00]).tracker.pending := by
  have decoded : decodeRejectPDU [0x80, 0x01, 0x01, 0x81, 0x01, 0x00] = .ok ⟨1, true, 1, 0⟩ := by
    decide +kernel
  have leads : Leads [0x80, 0x01, 0x01, 0x81, 0x01, 0x00] :=
    ⟨[0x01], [(0x81, [0x00])], by decide +kernel, fun _ none => by cases none⟩
  obtain ⟨extracted, completed⟩ := (dispatch_agrees_iff _).2 _ decoded rfl
  exact ⟨decoded, extracted.mpr leads, (completed twoPending (by decide)).mpr leads⟩

/-- An error that ends with its invoke ID is dropped, an error with two invoke IDs completes the
request with the first one while it names the second, and a reject that ends with its invoke ID
is dropped as well. -/
theorem dispatch_disagrees :
    (decodeConfirmedError [0xa2, 0x00, 0x80, 0x01, 0x01] = .ok ⟨1, 0, 0⟩ ∧
      1 ∈ (dispatchConfirmed twoPending .confirmedError
        [0xa2, 0x00, 0x80, 0x01, 0x01]).tracker.pending) ∧
    (decodeConfirmedError [0x80, 0x01, 0x02, 0x80, 0x01, 0x01] = .ok ⟨1, 0, 0⟩ ∧
      extractInvokeID [0x80, 0x01, 0x02, 0x80, 0x01, 0x01] = .ok 2 ∧
      1 ∈ (dispatchConfirmed twoPending .confirmedError
        [0x80, 0x01, 0x02, 0x80, 0x01, 0x01]).tracker.pending ∧
      2 ∉ (dispatchConfirmed twoPending .confirmedError
        [0x80, 0x01, 0x02, 0x80, 0x01, 0x01]).tracker.pending) ∧
    decodeRejectPDU [0x81, 0x01, 0x00, 0x80, 0x01, 0x01] = .ok ⟨1, true, 1, 0⟩ ∧
      1 ∈ (dispatchConfirmed twoPending .reject
        [0x81, 0x01, 0x00, 0x80, 0x01, 0x01]).tracker.pending := by
  decide +kernel

/-! ## Rejected requests -/

open Serverconn

/-- The reject that answers a request the server cannot take apart. -/
theorem handleConfirmedRequest_refused {text : String}
    (refused : unmarshalConfirmedRequest content = .error text) :
    handleConfirmedRequest content = .reply (marshalRejectPDU 0 1 0) := by
  rw [handleConfirmedRequest, refused]

/-- The reject that answers a request which the server cannot take apart names, and completes, the
request whose invoke ID can still be read if and only if that is number 0. -/
theorem reject_names_iff {content : Octets} {text : String}
    (refused : unmarshalConfirmedRequest content = .error text) :
    ∃ pdu reply reject, handleConfirmedRequest content = .reply pdu ∧
      decodePdu pdu = .ok (.reject, reply) ∧ decodeRejectPDU reply = .ok reject ∧
      reject.hasInvokeID = true ∧
      ∀ i, extractInvokeID content = .ok i → (reject.invokeID = i ↔ i = 0) ∧
        ∀ system : System, i ∈ system.tracker.pending →
          (i ∉ (dispatchConfirmed system .reject reply).tracker.pending ↔ i = 0) := by
  have decoded : decodePdu (marshalRejectPDU 0 1 0) =
      .ok (.reject, [0x80, 0x01, 0x00, 0x81, 0x01, 0x00]) := by decide +kernel
  have extracted : extractInvokeID [0x80, 0x01, 0x00, 0x81, 0x01, 0x00] = .ok 0 := by
    decide +kernel
  refine ⟨_, _, ⟨0, true, 1, 0⟩, handleConfirmedRequest_refused refused, decoded,
    by decide +kernel, rfl, fun i _ => ⟨eq_comm, fun system pending => ?_⟩⟩
  rw [completes_dispatchConfirmed_iff pending, extracted, Except.ok.injEq]
  exact eq_comm

theorem reject_names_zero :
    extractInvokeID [0x02, 0x01, 0x00] = .ok 0 ∧
      ∃ pdu reply reject, handleConfirmedRequest [0x02, 0x01, 0x00] = .reply pdu ∧
        decodePdu pdu = .ok (.reject, reply) ∧ decodeRejectPDU reply = .ok reject ∧
        reject.invokeID = 0 := by
  have refused : unmarshalConfirmedRequest [0x02, 0x01, 0x00] =
      .error "codec: unmarshal service: asn1: syntax error: sequence truncated" := by
    decide +kernel
  have named : extractInvokeID [0x02, 0x01, 0x00] = .ok 0 := by decide +kernel
  obtain ⟨pdu, reply, reject, replied, decoded, rejected, -, names⟩ := reject_names_iff refused
  exact ⟨named, pdu, reply, reject, replied, decoded, rejected, (names 0 named).1.mpr rfl⟩

/-- Request 2 without a service: the reject is for request 0, and request 2 stays pending. -/
theorem reject_misses :
    (∃ text, unmarshalConfirmedRequest [0x02, 0x01, 0x02] = .error text) ∧
      extractInvokeID [0x02, 0x01, 0x02] = .ok 2 ∧
      handleConfirmedRequest [0x02, 0x01, 0x02] = .reply (marshalRejectPDU 0 1 0) ∧
      decodePdu (marshalRejectPDU 0 1 0) = .ok (.reject, [0x80, 0x01, 0x00, 0x81, 0x01, 0x00]) ∧
      decodeRejectPDU [0x80, 0x01, 0x00, 0x81, 0x01, 0x00] = .ok ⟨0, true, 1, 0⟩ ∧
      2 ∈ (dispatchConfirmed twoPending .reject
        [0x80, 0x01, 0x00, 0x81, 0x01, 0x00]).tracker.pending := by
  refine ⟨⟨_, rfl⟩, ?_⟩
  decide +kernel

end GoMms.Mms
