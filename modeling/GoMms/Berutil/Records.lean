import GoMms.Berutil.Fields

/-!
# Records in arbitrary octets

What a loop over fields makes of octets of any origin. Octets that can be taken apart at all are a
list of records, and the loop stores them one by one: it accepts the octets if they are records
and it can store each of them (`decodeFields_ok_iff`). What it holds at the end follows from the
records seen by an invariant of one store (`foldlM_invariant`); a loop that keeps the last of
several records with one tag holds `lastRecord`.
-/

namespace GoMms.Berutil

variable {State : Type*}

def keepRecord (records : List (UInt8 × Octets)) (tag : UInt8) (content : Octets) :
    Except String (List (UInt8 × Octets)) :=
  .ok (records ++ [(tag, content)])

/-- The records that the octets consist of, tags and contents. -/
def recordsOf (data : Octets) : Except String (List (UInt8 × Octets)) :=
  decodeFields (fun _ => "") keepRecord data []

/-- The contents of the last record with the tag. -/
def lastRecord (tag : UInt8) (records : List (UInt8 × Octets)) : Option Octets :=
  (records.filter fun record => record.1 = tag).getLast?.map Prod.snd

theorem lastRecord_append (tag : UInt8) (records : List (UInt8 × Octets))
    (record : UInt8 × Octets) :
    lastRecord tag (records ++ [record]) =
      if record.1 = tag then some record.2 else lastRecord tag records := by
  unfold lastRecord
  by_cases wanted : record.1 = tag
  · simp [wanted]
  · simp [wanted]

variable {tag : UInt8} {records : List (UInt8 × Octets)} {state final : State}

/-- There is a last record if there is one. -/
theorem lastRecord_eq_none_iff :
    lastRecord tag records = none ↔ ∀ record ∈ records, record.1 ≠ tag := by
  simp [lastRecord]

theorem mem_of_lastRecord {content : Octets} (last : lastRecord tag records = some content) :
    (tag, content) ∈ records := by
  unfold lastRecord at last
  obtain ⟨record, found, rfl⟩ := Option.map_eq_some_iff.mp last
  obtain ⟨member, tagged⟩ := List.mem_filter.mp (List.mem_of_getLast? found)
  rwa [← of_decide_eq_true tagged]

/-- What every step keeps, relative to the items it has seen, holds after all of them. -/
theorem foldlM_invariant {Item : Type*} {step : State → Item → Except String State}
    (invariant : List Item → State → Prop)
    (keeps : ∀ past state item next, invariant past state → step state item = .ok next →
      invariant (past ++ [item]) next) {items : List Item} (start : invariant [] state)
    (done : items.foldlM step state = .ok final) : invariant items final := by
  suffices general : ∀ (past : List Item) (state : State), invariant past state →
      items.foldlM step state = .ok final → invariant (past ++ items) final from
    general [] state start done
  clear start done
  induction items with
  | nil =>
    intro past state start done
    cases done
    rwa [List.append_nil]
  | cons item items ih =>
    intro past state start done
    rw [List.foldlM_cons] at done
    cases stepped : step state item with
    | error text =>
      rw [stepped] at done
      cases done
    | ok next =>
      rw [stepped] at done
      have later := ih (past ++ [item]) next (keeps past state item next start stepped) done
      rwa [List.append_assoc] at later

section Loop

variable {context : State → String} {store : State → UInt8 → Octets → Except String State}
  {data : Octets}

variable {tlv : Tlv} {offset : Nat}

variable {state final : State} {content : Octets} {records : List (UInt8 × Octets)} {tag : UInt8}

/-- The pass of a loop whose records can be read and stored. -/
theorem fieldPass_eq {next : State} (read : decodeTLVAt data offset = .ok tlv)
    (stored : store state tlv.tag tlv.content = .ok next) :
    fieldPass context store data state offset = .ok (.next next (offset + tlv.consumed)) := by
  simp only [fieldPass, read, stored]

theorem consumed_pos (read : decodeTLVAt data offset = .ok tlv) : 0 < tlv.consumed :=
  Nat.lt_of_lt_of_le Nat.two_pos
    ((two_le_tlvSize tlv.content.length).trans (decodeTLVAt_ok read).2.2.1)

/-- The header of a record takes two octets or more. -/
theorem length_content_le (read : decodeTLVAt data offset = .ok tlv) :
    tlv.content.length + 2 ≤ tlv.consumed := by
  have header := (decodeTLVAt_ok read).2.2.1
  have size := lengthSize_pos tlv.content.length
  unfold tlvSize at header
  omega

theorem requiredField_ok {text mismatch : String} {wanted : UInt8} {after : Nat}
    (ok : requiredField text mismatch wanted data offset = .ok (content, after)) :
    offset + content.length + 2 ≤ after ∧ after ≤ data.length := by
  unfold requiredField at ok
  split at ok
  · cases ok
  rename_i tlv read
  split_ifs at ok
  cases ok
  have inside := (decodeTLVAt_ok read).1
  have header := length_content_le read
  exact ⟨by omega, inside⟩

/-- A pass reads one record and stores it. -/
theorem fieldPass_ok {step : LoopStep State}
    (pass : fieldPass context store data state offset = .ok step) :
    ∃ tlv next, decodeTLVAt data offset = .ok tlv ∧ store state tlv.tag tlv.content = .ok next ∧
      step = .next next (offset + tlv.consumed) := by
  unfold fieldPass at pass
  split at pass
  · cases pass
  rename_i tlv read
  split at pass
  · cases pass
  rename_i stored
  cases pass
  exact ⟨tlv, _, read, stored, rfl⟩

/-- The octets from an offset on are the records and end at the last offset. -/
inductive Divides (data : Octets) : Nat → List (UInt8 × Octets) → Nat → Prop
  | done {offset : Nat} (past : data.length ≤ offset) : Divides data offset [] offset
  | record {offset last : Nat} {tlv : Tlv} {records : List (UInt8 × Octets)}
      (below : offset < data.length) (read : decodeTLVAt data offset = .ok tlv)
      (rest : Divides data (offset + tlv.consumed) records last) :
      Divides data offset ((tlv.tag, tlv.content) :: records) last

/-- From any offset on, the loop stores the records that the rest of the octets consists of. -/
theorem offsetLoop_fieldPass_iff {state final : State} {last : Nat} :
    offsetLoop data.length (fieldPass context store data) state offset = .ok (final, last) ↔
      ∃ records, Divides data offset records last ∧
        records.foldlM (fun state record => store state record.1 record.2) state = .ok final := by
  constructor
  · intro done
    refine offsetLoop_rec (fun past => ⟨[], .done past, rfl⟩) ?_ ?_ done
    · intro _ _ _ pass
      obtain ⟨_, _, _, _, stops⟩ := fieldPass_ok pass
      cases stops
    · rintro _ _ _ _ below pass _ ⟨records, divides, folded⟩
      obtain ⟨tlv, _, read, stored, same⟩ := fieldPass_ok pass
      cases same
      refine ⟨_ :: records, .record below read divides, ?_⟩
      rw [List.foldlM_cons, stored]
      exact folded
  · rintro ⟨records, divides, folded⟩
    induction divides generalizing state with
    | done past =>
      cases folded
      exact offsetLoop_done past
    | @record offset _ tlv _ below read _ ih =>
      rw [List.foldlM_cons] at folded
      cases stored : store state tlv.tag tlv.content with
      | error text =>
        rw [stored] at folded
        cases folded
      | ok next =>
        rw [stored] at folded
        have moves := consumed_pos read
        rw [offsetLoop_next below (fieldPass_eq read stored) (by omega)]
        exact ih folded

/-- A loop of its own that parses one record in each pass divides the octets as well. -/
theorem divides_of_offsetLoop {Result : Type*} (parse : UInt8 → Octets → Result → Prop)
    {pass : List Result → Nat → Except String (LoopStep (List Result))}
    (parses : ∀ found offset step, pass found offset = .ok step →
      ∃ tlv value, decodeTLVAt data offset = .ok tlv ∧ parse tlv.tag tlv.content value ∧
        step = .next (found ++ [value]) (offset + tlv.consumed))
    {found results : List Result} {last : Nat}
    (done : offsetLoop data.length pass found offset = .ok (results, last)) :
    ∃ records values, Divides data offset records last ∧ results = found ++ values ∧
      List.Forall₂ (fun record value => parse record.1 record.2 value) records values := by
  refine offsetLoop_rec
    (fun past => ⟨[], [], .done past, (List.append_nil _).symm, .nil⟩) ?_ ?_ done
  · intro _ _ _ stops
    obtain ⟨_, _, _, _, same⟩ := parses _ _ _ stops
    cases same
  · rintro _ _ _ _ below goes _ ⟨records, values, divides, rfl, each⟩
    obtain ⟨tlv, value, read, parsed, same⟩ := parses _ _ _ goes
    cases same
    exact ⟨_ :: records, value :: values, .record below read divides,
      List.append_assoc _ _ _, .cons parsed each⟩

theorem decodeFields_eq_ok_iff :
    decodeFields context store data state = .ok final ↔
      ∃ records last, Divides data 0 records last ∧
        records.foldlM (fun state record => store state record.1 record.2) state = .ok final := by
  have loop := fun last =>
    @offsetLoop_fieldPass_iff State context store data 0 state final last
  rw [exists_comm, ← exists_congr loop, decodeFields]
  split
  · next refused => simp [refused]
  · next done => simp [done]

/-- The records of the octets are those that divide them. -/
theorem recordsOf_eq_ok_iff :
    recordsOf data = .ok records ↔ ∃ last, Divides data 0 records last := by
  have kept : ∀ records found : List (UInt8 × Octets),
      records.foldlM (fun found record => keepRecord found record.1 record.2) found =
        .ok (found ++ records) := by
    intro records
    induction records with
    | nil => simp [pure, Except.pure]
    | cons record records ih =>
      intro found
      rw [List.foldlM_cons, keepRecord]
      exact (ih (found ++ [record])).trans (by rw [List.append_assoc, List.singleton_append])
  simp [recordsOf, decodeFields_eq_ok_iff, kept]

/-- The loop accepts the octets that are records it can store. -/
theorem decodeFields_ok_iff :
    decodeFields context store data state = .ok final ↔
      ∃ records, recordsOf data = .ok records ∧
        records.foldlM (fun state record => store state record.1 record.2) state = .ok final := by
  simp only [decodeFields_eq_ok_iff, recordsOf_eq_ok_iff, exists_and_right]

/-- The first of the records stands at the front of the octets. -/
theorem decodeTLVAt_of_recordsOf {record : UInt8 × Octets}
    (divided : recordsOf data = .ok (record :: records)) :
    data ≠ [] ∧ ∃ consumed, decodeTLVAt data 0 = .ok ⟨record.1, record.2, consumed⟩ := by
  obtain ⟨last, divides⟩ := recordsOf_eq_ok_iff.mp divided
  cases divides with
  | record below read rest => exact ⟨List.ne_nil_of_length_pos below, _, read⟩

/-- Every record was read somewhere in the octets. -/
theorem exists_read_of_recordsOf (divided : recordsOf data = .ok records) :
    ∀ record ∈ records, ∃ offset tlv,
      decodeTLVAt data offset = .ok tlv ∧ record = (tlv.tag, tlv.content) := by
  obtain ⟨last, divides⟩ := recordsOf_eq_ok_iff.mp divided
  generalize 0 = offset at divides
  clear divided
  induction divides with
  | done past => simp
  | record below read rest ih => exact List.forall_mem_cons.mpr ⟨⟨_, _, read, rfl⟩, ih⟩

/-- A record that fills the octets is the only one. -/
theorem recordsOf_single (filled : data ≠ [])
    (read : decodeTLVAt data 0 = .ok ⟨tag, content, data.length⟩) :
    recordsOf data = .ok [(tag, content)] :=
  recordsOf_eq_ok_iff.mpr
    ⟨_, .record (List.length_pos_iff.mpr filled) read (.done (Nat.le_add_left _ _))⟩

/-- A condition on what is read can be evaluated. -/
instance decidableForallOk {α : Type*} {result : Except String α} {P : α → Prop}
    [DecidablePred P] : Decidable (∀ value, result = .ok value → P value) :=
  match result with
  | .error _ => .isTrue (by rintro _ ⟨⟩)
  | .ok value => decidable_of_iff (P value)
      ⟨fun holds _ same => Except.ok.inj same ▸ holds, fun all => all value rfl⟩

/-- Nothing stands behind the first record of the octets. -/
def Closed (data : Octets) : Prop :=
  ∀ tlv, decodeTLVAt data 0 = .ok tlv → tlv.consumed = data.length

theorem Closed.exact (closed : Closed data) (read : decodeTLVAt data 0 = .ok tlv) :
    decodeTLVExact data = .ok (tlv.tag, tlv.content) := by
  simp [decodeTLVExact, read, closed tlv read]

end Loop

end GoMms.Berutil
