import GoMms.Berutil.Tlv
import GoMms.Foundation.Tracing

/-!
# Loops over the fields of a record

The loop with which a decoder takes a record apart: each pass reads one tag-length-value record
and stores it, or refuses it. On what an encoder wrote, the loop is a fold
over the fields, whether they are accepted or not.
-/

namespace GoMms.Berutil

variable {State : Type*}

/-- The encodings of the items one after another, or the first error. -/
def encodeAll {Item : Type*} (encode : Item → Except String Octets) :
    List Item → Except String Octets
  | [] => .ok []
  | item :: items =>
    match encode item with
    | .error text => .error text
    | .ok octets =>
      match encodeAll encode items with
      | .error text => .error text
      | .ok others => .ok (octets ++ others)

/-- The refusal of a tag that the record does not have. -/
def unexpectedTag (tag : UInt8) (function : String) : Except String State :=
  .error ("pdu: unexpected tag 0x" ++ hex02 tag ++ " in " ++ function)

/-- One pass: read the record at the offset and store it. -/
def fieldPass (context : State → String) (store : State → UInt8 → Octets → Except String State)
    (data : Octets) (state : State) (offset : Nat) : Except String (LoopStep State) :=
  match decodeTLVAt data offset with
  | .error text => .error (context state ++ text)
  | .ok tlv =>
    match store state tlv.tag tlv.content with
    | .error text => .error text
    | .ok state => .ok (.next state (offset + tlv.consumed))

/-- Store the records of the data one by one. The context of an unreadable record may name how
far the loop has come. -/
def decodeFields (context : State → String) (store : State → UInt8 → Octets → Except String State)
    (data : Octets) (state : State) : Except String State :=
  match offsetLoop data.length (fieldPass context store data) state 0 with
  | .error text => .error text
  | .ok (state, _) => .ok state

/-- One pass of the search for a field. -/
def findPass (context : String) (wanted : UInt8) (data : Octets) (found : Option Octets)
    (offset : Nat) : Except String (LoopStep (Option Octets)) :=
  match decodeTLVAt data offset with
  | .error text => .error (context ++ text)
  | .ok tlv =>
    if tlv.tag = wanted then .ok (.stop (some tlv.content) (offset + tlv.consumed))
    else .ok (.next found (offset + tlv.consumed))

/-- The contents of the first record with the given tag; what follows it is not looked at. -/
def findField (context : String) (wanted : UInt8) (data : Octets) :
    Except String (Option Octets) :=
  match offsetLoop data.length (findPass context wanted data) none 0 with
  | .error text => .error text
  | .ok (found, _) => .ok found

/-- A record that is recognised by its first octet and may be absent: its contents and the offset
after it. -/
def optionalField (context : String) (wanted : UInt8) (data : Octets) (offset : Nat) :
    Except String (Option Octets × Nat) :=
  if data[offset]? = some wanted then
    match decodeTLVAt data offset with
    | .error text => .error (context ++ text)
    | .ok tlv => .ok (some tlv.content, offset + tlv.consumed)
  else .ok (none, offset)

/-- A record with the given tag: its contents and the offset after it. -/
def requiredField (context mismatch : String) (wanted : UInt8) (data : Octets) (offset : Nat) :
    Except String (Octets × Nat) :=
  match decodeTLVAt data offset with
  | .error text => .error (context ++ text)
  | .ok tlv =>
    if tlv.tag ≠ wanted then .error (mismatch ++ hex02 tlv.tag)
    else .ok (tlv.content, offset + tlv.consumed)

/-! ## What was written -/

section Written

variable {context : State → String} {store : State → UInt8 → Octets → Except String State}

variable {limit : Nat} {fields : List (UInt8 × Octets)}

theorem offsetLoop_error {offset : Nat} {state : State} {text : String}
    {body : State → Nat → Except String (LoopStep State)} (below : offset < limit)
    (pass : body state offset = .error text) :
    offsetLoop limit body state offset = .error text := by
  rw [offsetLoop, dif_pos below, pass]

variable (context store) in
/-- From any offset on, the loop folds over the fields that stand there. -/
theorem offsetLoop_fieldPass (fits : ∀ field ∈ fields, field.2.length < maxContent) (front : Octets)
    (state : State) :
    let data := front ++ encodeFields fields
    offsetLoop data.length (fieldPass context store data) state front.length =
      (fields.foldlM (fun state field => store state field.1 field.2) state).map
        fun state => (state, data.length) := by
  induction fields generalizing front state with
  | nil =>
    simp only [encodeFields_nil, List.append_nil, List.foldlM_nil]
    exact offsetLoop_done (le_refl _)
  | cons field fields ih =>
    obtain ⟨first, others⟩ := List.forall_mem_cons.mp fits
    have record := decodeTLVAt_encodeTLV field.1 first front (encodeFields fields)
    have positive := two_le_tlvSize field.2.length
    have below : front.length < (front ++ encodeFields (field :: fields)).length := by
      simp only [encodeFields_cons, List.length_append, length_encodeTLV]
      omega
    intro data
    have whole : data = front ++ encodeTLV field.1 field.2 ++ encodeFields fields := by
      simp only [data, encodeFields_cons, List.append_assoc]
    rw [List.foldlM_cons]
    cases stored : store state field.1 field.2 with
    | error text =>
      apply offsetLoop_error below
      rw [fieldPass, whole, record]
      simp only [stored]
    | ok next =>
      have pass : fieldPass context store data state front.length =
          .ok (.next next (front.length + tlvSize field.2.length)) := by
        rw [fieldPass, whole, record]
        simp only [stored]
      have rest := ih others (front ++ encodeTLV field.1 field.2) next
      rw [← whole, List.length_append, length_encodeTLV] at rest
      rw [offsetLoop_next below pass (by omega), rest]
      rfl

variable (context store) in
/-- On the fields an encoder wrote, the loop stores one after the other. -/
theorem decodeFields_encodeFields (fits : ∀ field ∈ fields, field.2.length < maxContent)
    (state : State) :
    decodeFields context store (encodeFields fields) state =
      fields.foldlM (fun state field => store state field.1 field.2) state := by
  have loop := offsetLoop_fieldPass context store fits [] state
  simp only [List.nil_append, List.length_nil] at loop
  rw [decodeFields, loop]
  cases fields.foldlM (fun state field => store state field.1 field.2) state <;> rfl

variable {content : Octets}

variable (context store) in
/-- One field. -/
theorem decodeFields_single (tag : UInt8) (fits : content.length < maxContent) (state : State) :
    decodeFields context store (encodeTLV tag content) state = store state tag content := by
  have alone : ∀ field ∈ [(tag, content)], field.2.length < maxContent := by
    simpa using fits
  have fields := decodeFields_encodeFields context store alone state
  simp only [encodeFields_cons, encodeFields_nil, List.append_nil, List.foldlM_cons,
    List.foldlM_nil, bind_pure] at fields
  exact fields

variable (context store) in
/-- Two fields. -/
theorem decodeFields_pair {first second : UInt8} {next : Octets}
    (fits : content.length < maxContent) (nextFits : next.length < maxContent) (state : State) :
    decodeFields context store (encodeTLV first content ++ encodeTLV second next) state =
      (store state first content).bind fun state => store state second next := by
  have both : ∀ field ∈ [(first, content), (second, next)], field.2.length < maxContent := by
    simp [fits, nextFits]
  have fields := decodeFields_encodeFields context store both state
  simp only [encodeFields_cons, encodeFields_nil, List.append_nil, List.foldlM_cons,
    List.foldlM_nil, bind_pure] at fields
  exact fields

variable (context store) in
/-- Three fields. -/
theorem decodeFields_triple {first second third : UInt8} {next last : Octets}
    (fits : content.length < maxContent) (nextFits : next.length < maxContent)
    (lastFits : last.length < maxContent) (state : State) :
    decodeFields context store
        (encodeTLV first content ++ encodeTLV second next ++ encodeTLV third last) state =
      (store state first content).bind fun state =>
        (store state second next).bind fun state => store state third last := by
  have all : ∀ field ∈ [(first, content), (second, next), (third, last)],
      field.2.length < maxContent := by
    simp [fits, nextFits, lastFits]
  have fields := decodeFields_encodeFields context store all state
  simp only [encodeFields_cons, encodeFields_nil, List.append_nil, ← List.append_assoc,
    List.foldlM_cons, List.foldlM_nil, bind_pure] at fields
  exact fields

variable (context store) in
/-- A first field that is too long to be read makes the loop fail. -/
theorem decodeFields_long (tag : UInt8) (long : maxContent ≤ content.length)
    (machine : content.length < 256 ^ 8) (rest : Octets) (state : State) :
    ∃ text, decodeFields context store (encodeTLV tag content ++ rest) state = .error text := by
  obtain ⟨text, refused⟩ := decodeTLVAt_encodeTLV_long tag long machine [] rest
  have pass : fieldPass context store (encodeTLV tag content ++ rest) state 0 =
      .error (context state ++ text) := by
    rw [fieldPass, show decodeTLVAt (encodeTLV tag content ++ rest) 0 = .error text from refused]
  refine ⟨context state ++ text, ?_⟩
  rw [decodeFields, offsetLoop_error (by simp [encodeTLV]) pass]

/-- A loop that collects what it parses, as long as there is room for it, accepts the items that
can be parsed one by one. -/
theorem foldlM_collect_iff {Item Result : Type*}
    {step : List Result → Item → Except String (List Result)} {parse : Item → Except String Result}
    (collects : ∀ found item result, found.length < limit →
      (step found item = .ok result ↔ ∃ parsed, parse item = .ok parsed ∧
        result = found ++ [parsed])) {items : List Item} {found result : List Result}
    (room : found.length + items.length ≤ limit) :
    items.foldlM step found = .ok result ↔
      ∃ parsed, List.Forall₂ (fun item value => parse item = .ok value) items parsed ∧
        result = found ++ parsed := by
  induction items generalizing found with
  | nil =>
    rw [List.foldlM_nil]
    constructor
    · intro same
      cases same
      exact ⟨[], .nil, (List.append_nil _).symm⟩
    · rintro ⟨parsed, none, rfl⟩
      cases none
      rw [List.append_nil]
      rfl
  | cons item items ih =>
    rw [List.length_cons] at room
    have enough : ∀ value : Result, (found ++ [value]).length + items.length ≤ limit := by
      intro value
      rw [List.length_append, List.length_singleton]
      omega
    rw [List.foldlM_cons]
    constructor
    · intro ran
      cases first : step found item with
      | error text =>
        rw [first] at ran
        cases ran
      | ok next =>
        obtain ⟨value, parsed, rfl⟩ := (collects found item next (by omega)).mp first
        rw [first] at ran
        obtain ⟨values, others, rfl⟩ := (ih (enough value)).mp ran
        exact ⟨value :: values, .cons parsed others, List.append_assoc _ _ _⟩
    · rintro ⟨parsed, all, rfl⟩
      cases all with
      | cons parsed others =>
        rw [(collects found item _ (by omega)).mpr ⟨_, parsed, rfl⟩]
        exact (ih (enough _)).mpr ⟨_, others, by simp⟩

section Lists

variable {Item Result : Type*} {limit : Nat} {tag : UInt8} {parse : Octets → Except String Result}
  {collect : List Result → UInt8 → Octets → Except String (List Result)}

variable {result : List Result}

/-- The loop over a list of records with one tag accepts the records that can be parsed one by
one. -/
theorem decodeFields_collect_iff (context : List Result → String)
    (collects : ∀ found content result, found.length < limit →
      (collect found tag content = .ok result ↔ ∃ parsed, parse content = .ok parsed ∧
        result = found ++ [parsed])) {contents : List Octets} (few : contents.length ≤ limit)
    (short : ∀ content ∈ contents, content.length < maxContent) :
    decodeFields context collect (encodeFields (contents.map fun content => (tag, content))) [] =
        .ok result ↔
      List.Forall₂ (fun content value => parse content = .ok value) contents result := by
  rw [decodeFields_encodeFields _ _ (by simpa using short), List.foldlM_map,
    foldlM_collect_iff collects (by simpa using few)]
  simp

variable {encode body : Item → Except String Octets}

variable {items : List Item} {octets : Octets}

/-- What is encoded consists of an encoding of each item. -/
theorem encodeAll_eq_ok_iff :
    encodeAll encode items = .ok octets ↔ ∃ parts,
      List.Forall₂ (fun item part => encode item = .ok part) items parts ∧
        octets = parts.flatten := by
  have mapped : encodeAll encode items = (items.mapM encode).map List.flatten := by
    induction items with
    | nil => rfl
    | cons item items ih =>
      rw [encodeAll, List.mapM_cons, ih]
      cases encode item with
      | error text => rfl
      | ok part => cases items.mapM encode <;> rfl
  simp only [mapped, ← Tracing.mapM_eq_ok_iff]
  cases items.mapM encode <;> simp [Except.map, eq_comm]

/-- Encoding goes through when every item has an encoding. -/
theorem encodeAll_of_each (each : ∀ item ∈ items, ∃ part, encode item = .ok part) :
    ∃ octets, encodeAll encode items = .ok octets := by
  obtain ⟨parts, paired⟩ := Tracing.exists_forall₂_iff.mpr each
  exact ⟨_, encodeAll_eq_ok_iff.mpr ⟨parts, paired, rfl⟩⟩

/-- The first items are encoded first. -/
theorem encodeAll_take (encoded : encodeAll encode items = .ok octets) (k : Nat) :
    ∃ part, encodeAll encode (items.take k) = .ok part ∧ part <+: octets := by
  obtain ⟨parts, each, rfl⟩ := encodeAll_eq_ok_iff.mp encoded
  refine ⟨_, encodeAll_eq_ok_iff.mpr ⟨parts.take k, List.forall₂_take k each, rfl⟩,
    (parts.drop k).flatten, ?_⟩
  rw [← List.flatten_append, List.take_append_drop]

/-- A list of items, each a record with the same tag, is a list of fields. -/
theorem encodeAll_ok_iff (records : ∀ item part, encode item = .ok part ↔
      ∃ content, body item = .ok content ∧ part = encodeTLV tag content) :
    encodeAll encode items = .ok octets ↔
      ∃ contents, List.Forall₂ (fun item content => body item = .ok content) items contents ∧
        octets = encodeFields (contents.map fun content => (tag, content)) := by
  rw [encodeAll_eq_ok_iff]
  constructor
  · rintro ⟨parts, each, rfl⟩
    induction each with
    | nil => exact ⟨[], .nil, rfl⟩
    | cons first _ ih =>
      obtain ⟨content, made, rfl⟩ := (records _ _).mp first
      obtain ⟨contents, bodies, same⟩ := ih
      exact ⟨content :: contents, .cons made bodies, by rw [List.flatten_cons, same]; rfl⟩
  · rintro ⟨contents, bodies, rfl⟩
    refine ⟨contents.map (encodeTLV tag), List.forall₂_map_right_iff.mpr (bodies.imp ?_), ?_⟩
    · exact fun _ _ made => (records _ _).mpr ⟨_, made, rfl⟩
    · rw [encodeFields, List.flatMap_map]
      rfl

/-- What an encoder wrote item by item, the loop reads item by item, or not at all. -/
theorem decodeFields_encodeAll_iff (context : List Result → String)
    (records : ∀ item part, encode item = .ok part ↔
      ∃ content, body item = .ok content ∧ part = encodeTLV tag content)
    (collects : ∀ found content result, found.length < limit →
      (collect found tag content = .ok result ↔ ∃ parsed, parse content = .ok parsed ∧
        result = found ++ [parsed])) {reads : Item → Result → Prop}
    (parses : ∀ item content value, body item = .ok content → content.length < maxContent →
      (parse content = .ok value ↔ reads item value)) (few : items.length ≤ limit)
    (encoded : encodeAll encode items = .ok octets) (short : octets.length < maxContent) :
    decodeFields context collect octets [] = .ok result ↔ List.Forall₂ reads items result := by
  obtain ⟨contents, bodies, rfl⟩ := (encodeAll_ok_iff records).mp encoded
  have each : ∀ content ∈ contents, content.length < maxContent := by
    intro content member
    exact length_lt_of_records short (tag, content) (List.mem_map_of_mem member)
  rw [decodeFields_collect_iff context collects (bodies.length_eq ▸ few) each]
  clear encoded short few
  induction bodies generalizing result with
  | nil => cases result <;> simp
  | cons made bodies ih =>
    rw [List.forall_mem_cons] at each
    cases result with
    | nil => simp
    | cons value values =>
      rw [List.forall₂_cons, List.forall₂_cons, parses _ _ _ made each.1]
      exact and_congr_right fun _ => ih each.2

end Lists

/-- The wanted field is found at the front, whatever follows it. -/
theorem findField_encodeTLV (context : String) (wanted : UInt8) (fits : content.length < maxContent)
    (rest : Octets) :
    findField context wanted (encodeTLV wanted content ++ rest) = .ok (some content) := by
  have below : 0 < (encodeTLV wanted content ++ rest).length := by
    have positive := two_le_tlvSize content.length
    rw [List.length_append, length_encodeTLV]
    omega
  have pass : findPass context wanted (encodeTLV wanted content ++ rest) none 0 =
      .ok (.stop (some content) (0 + tlvSize content.length)) := by
    rw [findPass, decodeTLVAt_first wanted fits rest]
    simp only [if_true]
  rw [findField, offsetLoop_stop below pass]

theorem requiredField_encodeTLV (context mismatch : String) (wanted : UInt8)
    (fits : content.length < maxContent) (front rest : Octets) :
    requiredField context mismatch wanted (front ++ encodeTLV wanted content ++ rest)
        front.length = .ok (content, front.length + tlvSize content.length) := by
  simp only [requiredField, decodeTLVAt_encodeTLV wanted fits front rest, ne_eq,
    not_true_eq_false, if_false]

theorem optionalField_encodeTLV (context : String) (wanted : UInt8)
    (fits : content.length < maxContent) (front rest : Octets) :
    optionalField context wanted (front ++ encodeTLV wanted content ++ rest) front.length =
      .ok (some content, front.length + tlvSize content.length) := by
  have lead : (front ++ encodeTLV wanted content ++ rest)[front.length]? = some wanted := by
    simp [encodeTLV]
  rw [optionalField, if_pos lead, decodeTLVAt_encodeTLV wanted fits front rest]

/-- A record with another tag is not taken for the optional one. -/
theorem optionalField_other (context : String) {wanted tag : UInt8} (other : tag ≠ wanted)
    (content front rest : Octets) :
    optionalField context wanted (front ++ encodeTLV tag content ++ rest) front.length =
      .ok (none, front.length) := by
  have lead : (front ++ encodeTLV tag content ++ rest)[front.length]? = some tag := by
    simp [encodeTLV]
  rw [optionalField, lead, if_neg (by simpa using other)]

end Written

end GoMms.Berutil
