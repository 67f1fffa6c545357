import GoMms.Iso.Presentation
import GoMms.Iso.Session

/-!
# The upper-layer stack

`internal/isostack` during data transfer: an MMS PDU travels as presentation user data inside a
session DATA SPDU. Release and abort are SPDUs with constant content, built from the two APDUs
of `internal/acse` that carry no association data.
-/

namespace GoMms.Isostack

open Berutil

namespace Acse

def encodeRLRE : Octets := [0x63, 0x00]

def encodeABRT (source : Int64) : Octets :=
  encodeTLV 0x64 (encodeTLV 0x80 (encodeInt source))

end Acse

def encodeDataRequest (mmsPayload : Octets) : Octets :=
  Session.encodeData (Presentation.encodeUserData Presentation.contextIDMMS mmsPayload)

def decodeDataResponse (data : Octets) : Except String Octets :=
  match Session.parse data with
  | .error text => .error ("isostack: session: " ++ text)
  | .ok spdu =>
    match spdu.type with
    | .data =>
      match Presentation.parse spdu.userData with
      | .error text => .error ("isostack: presentation: " ++ text)
      | .ok ppdu =>
        if ppdu.contextID ≠ Presentation.contextIDMMS then
          .error ("isostack: expected MMS context (3) in data response, got context " ++
            toString ppdu.contextID)
        else .ok ppdu.userData
    | .finish =>
      .error ("isostack: session ended by peer: received Session FINISH " ++
        "(server-initiated release)")
    | .abort => .error "isostack: session ended by peer: received Session ABORT"
    | other =>
      .error ("isostack: unexpected SPDU type " ++ other.string ++ " during data transfer")

def decodeReleaseRequest (data : Octets) : Except String Unit :=
  match Session.parse data with
  | .error text => .error ("isostack: parse session: " ++ text)
  | .ok spdu =>
    if spdu.type ≠ .finish then
      .error ("isostack: expected FINISH, got " ++ spdu.type.string)
    else .ok ()

/-- `mustSPDU`. The program stops at initialisation on an error; the SPDUs below have none. -/
def mustSPDU : Except String Octets → Octets
  | .ok spdu => spdu
  | .error _ => []

def encodeReleaseResponse : Octets :=
  mustSPDU (Session.encodeDisconnect
    (Presentation.encodeUserData Presentation.contextIDACSE Acse.encodeRLRE))

def encodeAbort : Octets :=
  mustSPDU (Session.encodeAbort
    (Presentation.encodeUserData Presentation.contextIDACSE (Acse.encodeABRT 0)))

end GoMms.Isostack
