import LightClient.Exchange.Peer
import LightClient.Exchange.Socket
import LightClient.Main
import LightClient.Proofs.Archive.RoundTrip
import LightClient.Proofs.Locate.ReceiptTick
import LightClient.Proofs.Quorum.Agreement
import LightClient.Proofs.Quorum.ArrivalOrder
import LightClient.Proofs.Quorum.Interference
import LightClient.Proofs.Quorum.Stability
import LightClient.Proofs.Transaction.Next
import LightClient.Proofs.Archive.Acceptance
import LightClient.Proofs.Archive.Interrupted
import LightClient.Proofs.Exchange.Foreign
import LightClient.Proofs.Exchange.HalfDuplex
import LightClient.Proofs.Stream.Steady
import LightClient.Proofs.Wire.Framing
import LightClient.Proofs.FirstPlace
import LightClient.Proofs.Locate.Find
import LightClient.Proofs.Locate.InArchive
import LightClient.Proofs.Transaction.Taken
import LightClient.Proofs.Locate.Evidence
import LightClient.Proofs.Locate.NotFound
import LightClient.Proofs.Locate.Server
import LightClient.Proofs.Locate.Offline
import LightClient.Proofs.Exchange.Drained
import LightClient.Proofs.Exchange.Watched
import LightClient.Proofs.Locate.Requests
import LightClient.Proofs.Program.Download
import LightClient.Proofs.Program.Trust
import LightClient.Proofs.Archive.ExactOrder
import LightClient.Proofs.Identity.Words
import LightClient.Proofs.Locate.ByDigest
import LightClient.Proofs.SignedBytes
import LightClient.Proofs.Transaction.Accepted
import LightClient.Proofs.Transaction.Successive
import LightClient.Proofs.Archive.Delivered
import LightClient.Proofs.Vote.ExactSplit
import LightClient.Proofs.Quorum.Partition
import LightClient.Proofs.Exchange.Fetched
import LightClient.Proofs.Tick.Waiting
import LightClient.Proofs.Bytes.Records
import LightClient.Proofs.SignedDigest
import LightClient.Proofs.Quorum.SaltBinding
import LightClient.Proofs.Bytes.Calls
