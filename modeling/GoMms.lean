import GoMms.Mms.EqualIsSent
import GoMms.Iso.SessionBounds
import GoMms.Iso.Authentication
import GoMms.Server.Shutdown
import GoMms.Servermodel.Lookup
import GoMms.Server.Reachable
import GoMms.Server.WriteAlignment
import GoMms.Server.ReadFaults
import GoMms.Server.AssociationPages
import GoMms.Server.FitList
import GoMms.Mms.ListingLoops
import GoMms.Mms.Dispatch
import GoMms.Mms.FileTransfer
import GoMms.Mms.JournalPaging
import GoMms.Server.Snapshot
import GoMms.Mms.InPlace
import GoMms.Mms.DefaultFit
import GoMms.Pdu.AlternateAccessTree
import GoMms.Pdu.DecoderFrames
import GoMms.Mms.Sends
import GoMms.Server.AcceptedRequests
import GoMms.Invoke.Wraparound
