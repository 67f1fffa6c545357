import GoMms.Berutil.Integer
import GoMms.Berutil.Tlv

/-!
# Presentation PDUs

`internal/presentation`: connect PPDUs and data-transfer PPDUs. Both carry a presentation data
value list, from which the stack takes the context identifier and the payload.
-/

namespace GoMms.Presentation

open Berutil

/-- The contents of the identifiers of the two abstract syntaxes and the transfer syntax. -/
def oidACSE : Octets := [0x52, 0x01, 0x00, 0x01]
def oidMMS : Octets := [0x28, 0xca, 0x22, 0x02, 0x01]
def oidBER : Octets := [0x51, 0x01]

def contextIDACSE : Int64 := 1
def contextIDMMS : Int64 := 3

inductive PpduKind where
  | cp
  | cpa
  | userData
  deriving DecidableEq, Repr

def PpduKind.string : PpduKind → String
  | cp => "CP"
  | cpa => "CPA"
  | userData => "UserData"

structure ConnectParams where
  callingSelector : Octets := []
  calledSelector : Octets := []
  deriving DecidableEq, Repr

structure ParsedPPDU where
  kind : PpduKind
  contextID : Int64 := 0
  userData : Octets := []
  deriving DecidableEq, Repr

/-! ## Encoding -/

def encodeFullyEncodedData (contextID : Int64) (payload : Octets) : Octets :=
  let pdvContent := encodeTLV 0x02 (encodeInt contextID) ++ encodeTLV 0xa0 payload
  encodeTLV 0x61 (encodeTLV 0x30 pdvContent)

def encodeUserData (contextID : Int64) (payload : Octets) : Octets :=
  encodeFullyEncodedData contextID payload

def encodeContextDef (id : Int64) (abstractSyntax transferSyntax : Octets) : Octets :=
  let ctxID := encodeTLV 0x02 (encodeInt id)
  let absName := encodeTLV 0x06 abstractSyntax
  let tsList := encodeTLV 0x30 (encodeTLV 0x06 transferSyntax)
  encodeTLV 0x30 (ctxID ++ absName ++ tsList)

def encodeContextDefinitionList : Octets :=
  let acseCtx := encodeContextDef contextIDACSE oidACSE oidBER
  let mmsCtx := encodeContextDef contextIDMMS oidMMS oidBER
  encodeTLV 0xa4 (acseCtx ++ mmsCtx)

def encodeAcceptResult : Octets :=
  encodeTLV 0x30 ([0x80, 0x01, 0x00] ++ encodeTLV 0x81 oidBER)

def encodeContextResultList : Octets :=
  encodeTLV 0xa5 (encodeAcceptResult ++ encodeAcceptResult)

/-- The end of `EncodeCP` and `EncodeCPA`: the mode selector and the normal-mode parameters. -/
def encodeConnectPPDU (normalMode : Octets) : Octets :=
  let modeSelector := encodeTLV 0xa0 [0x80, 0x01, 0x01]
  encodeTLV 0x31 (modeSelector ++ encodeTLV 0xa2 normalMode)

def encodeCP (p : ConnectParams) (acsePayload : Octets) : Octets :=
  let ctxList := encodeContextDefinitionList
  let fullyEncoded := encodeFullyEncodedData contextIDACSE acsePayload
  let normalMode := if p.callingSelector.length > 0 then encodeTLV 0x81 p.callingSelector else []
  let normalMode :=
    if p.calledSelector.length > 0 then normalMode ++ encodeTLV 0x82 p.calledSelector
    else normalMode
  encodeConnectPPDU (normalMode ++ ctxList ++ fullyEncoded)

def encodeCPA (respondingSelector acsePayload : Octets) : Octets :=
  let resultList := encodeContextResultList
  let fullyEncoded := encodeFullyEncodedData contextIDACSE acsePayload
  let normalMode := if respondingSelector.length > 0 then encodeTLV 0x83 respondingSelector else []
  encodeConnectPPDU (normalMode ++ resultList ++ fullyEncoded)

/-! ## Parsing -/

/-- One field of a presentation data value list; the flag records that the context identifier
has been seen. -/
def parsePdvField (seqContent : Octets) (state : ParsedPPDU × Bool) (offset : Nat) :
    Except String (LoopStep (ParsedPPDU × Bool)) :=
  match decodeTLVAt seqContent offset with
  | .error text => .error ("presentation: pdv-list field: " ++ text)
  | .ok tlv =>
    let offset := offset + tlv.consumed
    if tlv.tag = 0x02 then
      match decodeInteger tlv.content with
      | .error text => .error ("presentation: context-id: " ++ text)
      | .ok contextID => .ok (.next ({ state.1 with contextID := contextID }, true) offset)
    else if tlv.tag = 0xa0 then
      .ok (.next ({ state.1 with userData := tlv.content }, state.2) offset)
    else .ok (.next state offset)

def parsePdvList (data : Octets) (result : ParsedPPDU) : Except String ParsedPPDU :=
  match decodeTLVExact data with
  | .error text => .error ("presentation: pdv-list sequence: " ++ text)
  | .ok (_, seqContent) =>
    match offsetLoop seqContent.length (parsePdvField seqContent) (result, false) 0 with
    | .error text => .error text
    | .ok ((result, gotContextID), offset) =>
      if offset ≠ seqContent.length then
        .error ("presentation: pdv-list " ++ toString ((seqContent.length : Int) - offset) ++
          " trailing bytes")
      else if !gotContextID then .error "presentation: pdv-list missing context-id"
      else .ok result

def parseUserData (data : Octets) : Except String ParsedPPDU :=
  match decodeTLVExact data with
  | .error text => .error ("presentation: user-data outer: " ++ text)
  | .ok (_, content) => parsePdvList content { kind := .userData }

/-- One field of the normal-mode parameters; the flag records a context result list. -/
def parseNormalModeField (data : Octets) (state : ParsedPPDU × Bool) (offset : Nat) :
    Except String (LoopStep (ParsedPPDU × Bool)) :=
  match decodeTLVAt data offset with
  | .error text => .error ("presentation: normal-mode field: " ++ text)
  | .ok tlv =>
    let offset := offset + tlv.consumed
    if tlv.tag = 0x61 then
      match parsePdvList tlv.content state.1 with
      | .error text => .error text
      | .ok result => .ok (.stop (result, state.2) offset)
    else if tlv.tag = 0xa5 then .ok (.next (state.1, true) offset)
    -- selectors, the context definition list and unknown fields are skipped
    else .ok (.next state offset)

def parseNormalMode (data : Octets) (state : ParsedPPDU × Bool) :
    Except String (ParsedPPDU × Bool) :=
  match offsetLoop data.length (parseNormalModeField data) state 0 with
  | .error text => .error text
  | .ok (state, _) => .ok state

/-- One field of a connect PPDU: the mode selector and unknown fields are skipped. -/
def parseConnectField (content : Octets) (state : ParsedPPDU × Bool) (offset : Nat) :
    Except String (LoopStep (ParsedPPDU × Bool)) :=
  match decodeTLVAt content offset with
  | .error text => .error ("presentation: CP/CPA field: " ++ text)
  | .ok tlv =>
    let offset := offset + tlv.consumed
    if tlv.tag = 0xa2 then
      match parseNormalMode tlv.content state with
      | .error text => .error text
      | .ok state => .ok (.next state offset)
    else .ok (.next state offset)

def parseCPorCPA (data : Octets) : Except String ParsedPPDU :=
  match decodeTLVExact data with
  | .error text => .error ("presentation: CP/CPA outer: " ++ text)
  | .ok (_, content) =>
    match offsetLoop content.length (parseConnectField content) ({ kind := .cp }, false) 0 with
    | .error text => .error text
    | .ok ((result, hasContextResultList), _) =>
      .ok (if hasContextResultList then { result with kind := .cpa } else result)

def parse (data : Octets) : Except String ParsedPPDU :=
  match data with
  | tag :: _ :: _ =>
    if tag = 0x31 then parseCPorCPA data
    else if tag = 0x61 then parseUserData data
    else .error ("presentation: unknown PPDU tag 0x" ++ hex02 tag)
  | _ => .error ("presentation: PPDU too short (" ++ toString data.length ++ " bytes)")

end GoMms.Presentation
