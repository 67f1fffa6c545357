import GoMms.Berutil.Records
import GoMms.Iso.Association

/-!
# What a request says of its authentication

`parseAARQ` takes the fields of a request in any order and number: it skips those it does not know
and keeps the last one of each kind it knows. What it reports about authentication is therefore a
function of the last mechanism name and the last authentication value among all fields. A request
is without authentication only if it has neither; with the password mechanism it has both, and the
password is all that the value holds.
-/

namespace GoMms.Asn1

open Octets

variable {octets : Octets} {number : Nat}

variable {rest : Octets} {count : Nat}

/-- A number is at least what its leading groups make of it, and has 31 bits. -/
theorem bounds_of_parseBase128Int {value shifted : Nat}
    (parsed : parseBase128Int octets value shifted = .ok (number, rest)) :
    value * 128 ≤ number ∧ number < 2 ^ 31 := by
  induction octets generalizing value shifted with
  | nil => cases parsed
  | cons octet octets ih =>
    rw [parseBase128Int] at parsed
    dsimp only at parsed
    split_ifs at parsed with long padded continued large
    · have later := ih parsed
      omega
    · cases parsed
      omega

/-- A number below 128 stands in a single octet. -/
theorem eq_cons_of_parseBase128Int (parsed : parseBase128Int octets 0 0 = .ok (number, rest))
    (small : number < 128) : octets = UInt8.ofNat number :: rest := by
  cases octets with
  | nil => cases parsed
  | cons octet octets =>
    have group : (octet &&& 0x7f).toNat = octet.toNat % 128 := by
      rw [UInt8.toNat_and]
      exact Nat.and_two_pow_sub_one_eq_mod octet.toNat 7
    rw [parseBase128Int] at parsed
    simp only [Nat.zero_mul, Nat.zero_add, true_and] at parsed
    rw [if_neg (by decide)] at parsed
    split_ifs at parsed with padded continued large
    · have lower := (bounds_of_parseBase128Int parsed).1
      rw [highBit_iff] at continued
      have above : octet.toNat ≠ 128 := fun same => padded (UInt8.toNat_inj.mp same)
      have octets := octet.toNat_lt
      omega
    · cases parsed
      rw [highBit_iff] at continued
      rw [group, Nat.mod_eq_of_lt (by omega), UInt8.ofNat_toNat]

theorem ofNat_inj_of_lt {small : Nat} (first : small < 2 ^ 31) (second : number < 2 ^ 31)
    (same : Int64.ofNat small = Int64.ofNat number) : small = number := by
  have values := congrArg Int64.toInt same
  rw [Int64.toInt_ofNat_of_lt (by omega), Int64.toInt_ofNat_of_lt (by omega)] at values
  omega

/-- One arc below 128 in front of the others. -/
theorem eq_cons_of_parseArcs {arc : Nat} {arcs : List Int64} (small : arc < 128)
    (parsed : parseArcs count octets = .ok (Int64.ofNat arc :: arcs)) :
    ∃ count rest, octets = UInt8.ofNat arc :: rest ∧ parseArcs count rest = .ok arcs := by
  cases octets with
  | nil => simp [parseArcs] at parsed
  | cons octet octets =>
    cases count with
    | zero => cases parsed
    | succ count =>
      rw [parseArcs] at parsed
      · split at parsed
        · cases parsed
        rename_i number rest read
        split at parsed
        · cases parsed
        rename_i others later
        simp only [Except.ok.injEq, List.cons.injEq] at parsed
        obtain ⟨lead, rfl⟩ := parsed
        obtain rfl := ofNat_inj_of_lt (bounds_of_parseBase128Int read).2 (by omega) lead
        exact ⟨count, rest, eq_cons_of_parseBase128Int read small, later⟩
      · exact nofun

theorem eq_nil_of_parseArcs (parsed : parseArcs count octets = .ok []) : octets = [] := by
  cases octets with
  | nil => rfl
  | cons octet octets =>
    cases count with
    | zero => cases parsed
    | succ count =>
      rw [parseArcs] at parsed
      · split at parsed
        · cases parsed
        · split at parsed
          · cases parsed
          · cases parsed
      · exact nofun

/-- The contents of the identifier 2.2.3.1 are the only ones that are read as it. -/
theorem parseObjectIdentifier_password (parsed : parseObjectIdentifier octets = .ok [2, 2, 3, 1]) :
    octets = [0x52, 0x03, 0x01] := by
  unfold parseObjectIdentifier at parsed
  split_ifs at parsed
  split at parsed
  · cases parsed
  rename_i number rest read
  have bound := (bounds_of_parseBase128Int read).2
  split at parsed
  · cases parsed
  rename_i arcs later
  unfold leadingArcs at parsed
  split_ifs at parsed with low
  · simp only [Except.ok.injEq, List.cons_append, List.nil_append, List.cons.injEq] at parsed
    have lead : number / 40 = 2 := ofNat_inj_of_lt (by omega) (by decide) parsed.1
    omega
  · simp only [Except.ok.injEq, List.cons_append, List.nil_append, List.cons.injEq,
      true_and] at parsed
    have lead : number - 80 = 2 := ofNat_inj_of_lt (by omega) (by decide) parsed.1
    obtain rfl : number = 82 := by omega
    obtain ⟨-, rfl⟩ := parsed
    obtain ⟨_, behind, rfl, second⟩ := eq_cons_of_parseArcs (by decide : 3 < 128) later
    obtain ⟨_, none, rfl, third⟩ := eq_cons_of_parseArcs (by decide : 1 < 128) second
    rw [eq_cons_of_parseBase128Int read (by decide), eq_nil_of_parseArcs third]
    rfl

end GoMms.Asn1

namespace GoMms.Acse

open Berutil

/-! ## The loop over the fields -/

/-- What the parser makes of a field. -/
def takeAARQ (fields : AARQFields) (tag : UInt8) (inner : Octets) : Except String AARQFields :=
  if tag = 0xa6 then
    match Asn1.unmarshalObjectIdentifier inner with
    | .error text => .error ("acse: AARQ calling-AP-title: " ++ text)
    | .ok (oid, _) => .ok { fields with callingAPTitle := oid }
  else if tag = 0xa7 then
    match Asn1.unmarshalInt64 inner with
    | .error text => .error ("acse: AARQ calling-AE-qualifier: " ++ text)
    | .ok (val, _) => .ok { fields with callingAEQualifier := some val }
  else if tag = 0x8b then .ok { fields with mechOIDRaw := some inner }
  else if tag = 0xac then .ok { fields with rawAuthValue := some inner }
  else if tag = 0xbe then
    match parseExternalPayload inner with
    | .error text => .error text
    | .ok userData => .ok { fields with userData := userData }
  else .ok fields

theorem aarqField_eq (content : Octets) :
    aarqField content = fieldPass (fun _ => "acse: AARQ field: ") takeAARQ content := by
  funext fields offset
  unfold aarqField fieldPass takeAARQ
  cases decodeTLVAt content offset with
  | error text => rfl
  | ok tlv =>
    dsimp only
    split_ifs
    · cases Asn1.unmarshalObjectIdentifier tlv.content <;> rfl
    · cases Asn1.unmarshalInt64 tlv.content <;> rfl
    · rfl
    · rfl
    · cases parseExternalPayload tlv.content <;> rfl
    · rfl

/-- The fields keep the last mechanism name and the last authentication value. -/
def Latest (records : List (UInt8 × Octets)) (fields : AARQFields) : Prop :=
  fields.mechOIDRaw = lastRecord 0x8b records ∧ fields.rawAuthValue = lastRecord 0xac records

variable {fields : AARQFields} {raw content : Octets} {auth : AuthInfo}

theorem latest_takeAARQ {past : List (UInt8 × Octets)} {next : AARQFields} {record : UInt8 × Octets}
    (latest : Latest past fields) (taken : takeAARQ fields record.1 record.2 = .ok next) :
    Latest (past ++ [record]) next := by
  obtain ⟨tag, inner⟩ := record
  unfold Latest
  rw [lastRecord_append, lastRecord_append]
  unfold takeAARQ at taken
  split_ifs at taken with title qualifier name value info
  · split at taken
    · cases taken
    · cases taken
      subst title
      exact latest
  · split at taken
    · cases taken
    · cases taken
      subst qualifier
      exact latest
  · cases taken
    subst name
    exact ⟨rfl, latest.2⟩
  · cases taken
    subst value
    exact ⟨latest.1, rfl⟩
  · split at taken
    · cases taken
    · cases taken
      subst info
      exact latest
  · cases taken
    rw [if_neg name, if_neg value]
    exact latest

/-! ## Authentication -/

theorem decodeImplicitOID_eq (fits : raw.length < 2 ^ 31) {oid : List Int64}
    (decoded : decodeImplicitOID raw = .ok oid) : Asn1.parseObjectIdentifier raw = .ok oid := by
  have header := Codec.parseTagAndLength_append (show (0x06 : UInt8) &&& 0x1f ≠ 0x1f by decide)
    fits []
  rw [List.append_nil, List.append_nil] at header
  unfold decodeImplicitOID Asn1.unmarshalObjectIdentifier encodeTLV at decoded
  rw [header] at decoded
  simp only [ne_eq, gt_iff_lt, lt_irrefl, if_false, List.take_length] at decoded
  rw [if_neg (by decide)] at decoded
  cases parsed : Asn1.parseObjectIdentifier raw with
  | error text =>
    rw [parsed] at decoded
    cases decoded
  | ok found =>
    rw [parsed] at decoded
    exact decoded

/-- Only the contents that the parser compares with are the identifier of the password
mechanism. -/
theorem decodeImplicitOID_password_iff (fits : raw.length < 2 ^ 31) :
    decodeImplicitOID raw = .ok [2, 2, 3, 1] ↔ raw = authMechPasswordOID := by
  constructor
  · exact fun decoded => Asn1.parseObjectIdentifier_password (decodeImplicitOID_eq fits decoded)
  · rintro rfl
    exact decodeImplicitOID_authMechPasswordOID

/-- An authentication value that is accepted is filled by a single string. -/
theorem parsePasswordAuthValue_ok {value password : Octets}
    (parsed : parsePasswordAuthValue value = .ok password) :
    recordsOf value = .ok [(tagAuthValueGraphicString, password)] := by
  unfold parsePasswordAuthValue at parsed
  split_ifs at parsed with empty
  have filled : value ≠ [] := fun none => empty (by rw [none]; rfl)
  split at parsed
  · cases parsed
  rename_i tlv read
  split_ifs at parsed with other trailing
  cases parsed
  rw [not_not] at other trailing
  refine recordsOf_single filled ?_
  rw [read, ← other, ← trailing]

/-- What a request says of authentication, given its fields. -/
structure Reported (records : List (UInt8 × Octets)) (auth : AuthInfo) : Prop where
  /-- No authentication means no mechanism name. -/
  none_iff : auth.mechanism = .none ↔ ∀ record ∈ records, record.1 ≠ 0x8b
  /-- And then there is no authentication value. -/
  none_value : auth.mechanism = .none → ∀ record ∈ records, record.1 ≠ 0xac
  /-- The password mechanism means that the last mechanism name is that of passwords. -/
  password_iff : auth.mechanism = .password ↔ lastRecord 0x8b records = some authMechPasswordOID
  /-- And then a single string fills the last authentication value. -/
  password_value : auth.mechanism = .password → ∃ value, lastRecord 0xac records = some value ∧
    recordsOf value = .ok [(tagAuthValueGraphicString, auth.password)]
  /-- There is no password otherwise. -/
  password_empty : auth.mechanism ≠ .password → auth.password = []

theorem classifyMechanism_iff (name : Octets) :
    classifyMechanism name = .password ↔ name = authMechPasswordOID := by
  unfold classifyMechanism
  split_ifs with same
  · exact iff_of_true rfl same
  · exact iff_of_false nofun same

theorem classifyMechanism_ne_none (name : Octets) : classifyMechanism name ≠ .none := by
  unfold classifyMechanism
  split_ifs <;> exact nofun

theorem reported_authInfo {records : List (UInt8 × Octets)} (latest : Latest records fields)
    (ok : fields.authInfo = .ok auth) : Reported records auth := by
  obtain ⟨name, value⟩ := latest
  unfold AARQFields.authInfo at ok
  rw [name, value] at ok
  cases named : lastRecord 0x8b records with
  | none =>
    rw [named] at ok
    have unnamed := lastRecord_eq_none_iff.mp named
    cases valued : lastRecord 0xac records with
    | some content =>
      rw [valued] at ok
      cases ok
    | none =>
      rw [valued] at ok
      cases ok
      have unvalued := lastRecord_eq_none_iff.mp valued
      exact ⟨iff_of_true rfl unnamed, fun _ => unvalued,
        iff_of_false nofun (by rw [named]; exact nofun), nofun, fun _ => rfl⟩
  | some raw =>
    rw [named] at ok
    dsimp only at ok
    have present : ¬∀ record ∈ records, record.1 ≠ 0x8b := by
      rw [← lastRecord_eq_none_iff, named]
      exact nofun
    split at ok
    · cases ok
    rename_i oid decoded
    split at ok
    · cases ok
    · rename_i content mechanism valued
      split at ok
      · cases ok
      rename_i password read
      cases ok
      have same := (classifyMechanism_iff raw).mp mechanism
      refine ⟨iff_of_false (classifyMechanism_ne_none raw) present,
        fun none => absurd none (classifyMechanism_ne_none raw), ?_,
        fun _ => ⟨content, valued, parsePasswordAuthValue_ok read⟩,
        fun other => absurd mechanism other⟩
      rw [named, same]
      exact iff_of_true (by rw [← same]; exact mechanism) rfl
    rename_i other missing
    cases ok
    have unknown : classifyMechanism raw ≠ .password := by
      intro mechanism
      cases valued : lastRecord 0xac records with
      | none => exact other mechanism valued
      | some content => exact missing content mechanism valued
    refine ⟨iff_of_false (classifyMechanism_ne_none raw) present,
      fun none => absurd none (classifyMechanism_ne_none raw), ?_,
      fun mechanism => absurd mechanism unknown, fun _ => rfl⟩
    rw [named]
    refine iff_of_false unknown fun same => unknown ?_
    exact (classifyMechanism_iff raw).mpr (Option.some.inj same)

theorem tag_of_decodeTLVExact {first tag : UInt8} {rest : Octets}
    (read : decodeTLVExact (first :: rest) = .ok (tag, content)) : tag = first := by
  unfold decodeTLVExact decodeTLVAt at read
  simp only [List.getElem?_cons_zero] at read
  split at read
  · cases read
  rename_i tlv found
  split_ifs at read
  cases read
  split at found
  · cases found
  split_ifs at found
  cases found
  rfl

/-- What is accepted as a request is a record with its tag. -/
theorem parse_aarq {data : Octets} {apdu : ParsedAPDU} (parsed : parse data = .ok apdu)
    (request : apdu.type = .aarq) :
    ∃ content userData, decodeTLVExact data = .ok (ApduType.aarq.tag, content) ∧
      parseAARQ content = .ok (userData, apdu.auth) := by
  match data, parsed with
  | tag :: second :: rest, parsed =>
    simp only [parse] at parsed
    split at parsed
    · cases parsed
    rename_i outer content read
    have first := tag_of_decodeTLVExact read
    split_ifs at parsed with aarq aare rlrq rlre abrt
    · split at parsed
      · cases parsed
      rename_i userData auth inner
      cases parsed
      exact ⟨content, userData, by rw [read, first, aarq], inner⟩
    -- the other kinds are reported as such
    · split at parsed
      · cases parsed
      · cases parsed
        cases request
    · split at parsed
      · cases parsed
      · cases parsed
        cases request
    · cases parsed
      cases request
    · split at parsed
      · cases parsed
      · cases parsed
        cases request

theorem parseAARQ_reported {userData : Octets} (parsed : parseAARQ content = .ok (userData, auth)) :
    ∃ records, recordsOf content = .ok records ∧ Reported records auth := by
  unfold parseAARQ at parsed
  rw [aarqField_eq] at parsed
  split at parsed
  · cases parsed
  rename_i fields last done
  have decoded : decodeFields (fun _ => "acse: AARQ field: ") takeAARQ content {} =
      .ok fields := by
    rw [decodeFields, done]
  obtain ⟨records, divided, taken⟩ := decodeFields_ok_iff.mp decoded
  have latest : Latest records fields :=
    foldlM_invariant Latest (fun _ _ _ _ => latest_takeAARQ) ⟨rfl, rfl⟩ taken
  split at parsed
  · cases parsed
  rename_i found ok
  cases parsed
  exact ⟨records, divided, reported_authInfo latest ok⟩

/-- Octets that are accepted as a request consist of fields, in any order and number, and what is
reported about authentication is what the fields say. The name of the password mechanism is the
identifier 2.2.3.1. -/
theorem parse_notDowngraded {data : Octets} {apdu : ParsedAPDU} (parsed : parse data = .ok apdu)
    (request : apdu.type = .aarq) :
    ∃ content records, decodeTLVExact data = .ok (ApduType.aarq.tag, content) ∧
      recordsOf content = .ok records ∧ Reported records apdu.auth ∧
      ∀ name, lastRecord 0x8b records = some name →
        (name = authMechPasswordOID ↔ decodeImplicitOID name = .ok [2, 2, 3, 1]) := by
  obtain ⟨content, userData, outer, inner⟩ := parse_aarq parsed request
  obtain ⟨records, divided, reported⟩ := parseAARQ_reported inner
  refine ⟨content, records, outer, divided, reported, fun name last => ?_⟩
  obtain ⟨offset, tlv, read, same⟩ := exists_read_of_recordsOf divided _ (mem_of_lastRecord last)
  have short := (decodeTLVAt_ok read).2.1
  refine (decodeImplicitOID_password_iff ?_).symm
  rw [show name = tlv.content from congrArg Prod.snd same]
  exact short.trans (by decide)

/-- A request with a password, and with the name of another mechanism in front. -/
def repeatedName : Octets :=
  [0x60, 0x11, 0x8b, 0x03, 0x29, 0x01, 0x01, 0x8b, 0x03, 0x52, 0x03, 0x01, 0xac, 0x05, 0x80, 0x03,
    0x61, 0x62, 0x63]

theorem parse_notDowngraded_password :
    ∃ content records, decodeTLVExact repeatedName = .ok (ApduType.aarq.tag, content) ∧
      recordsOf content = .ok records ∧
      Reported records ⟨.password, [2, 2, 3, 1], [0x61, 0x62, 0x63], [], none⟩ := by
  have parsed : parse repeatedName = .ok
      { type := .aarq, auth := ⟨.password, [2, 2, 3, 1], [0x61, 0x62, 0x63], [], none⟩ } := by
    decide +kernel
  obtain ⟨content, records, outer, divided, reported, -⟩ := parse_notDowngraded parsed rfl
  exact ⟨content, records, outer, divided, reported⟩

end GoMms.Acse
