import RemoteAttestation.Foundation.Bytes
import RemoteAttestation.Foundation.Access
import RemoteAttestation.Foundation.Allocation
import RemoteAttestation.Foundation.Cells
import RemoteAttestation.Foundation.Decimal
import RemoteAttestation.Foundation.Position
import RemoteAttestation.Foundation.Getopt
import RemoteAttestation.Foundation.Shell
import RemoteAttestation.Foundation.Proc
import RemoteAttestation.Foundation.Guarded
import RemoteAttestation.Foundation.Outcome
import RemoteAttestation.Foundation.StringBuffer
import RemoteAttestation.Foundation.Trace
import RemoteAttestation.Transport.HexUtil
import RemoteAttestation.Transport.Descriptors
import RemoteAttestation.Transport.HexBuffer
import RemoteAttestation.Transport.HexDecoder
import RemoteAttestation.Transport.HexFile
import RemoteAttestation.Transport.MsgIo
import RemoteAttestation.Transport.Framing
import RemoteAttestation.Transport.ReadContract
import RemoteAttestation.Transport.RoundTrip
import RemoteAttestation.Transport.Segmentation
import RemoteAttestation.Transport.StandardInput
import RemoteAttestation.Transport.TwoTransports
import RemoteAttestation.Report.Json
import RemoteAttestation.Enclave.KeyHash
import RemoteAttestation.Enclave.KeyConfidentiality
import RemoteAttestation.Crypto.OpenSsl
import RemoteAttestation.Crypto.BigNum
import RemoteAttestation.Crypto.ByteOrder
import RemoteAttestation.Crypto.Wrappers
import RemoteAttestation.Crypto.Success
import RemoteAttestation.Crypto.KeyLoad
import RemoteAttestation.Crypto.PublicKey
import RemoteAttestation.ServiceProvider.Layout
import RemoteAttestation.ServiceProvider.System
import RemoteAttestation.Report.IasRequest
import RemoteAttestation.ServiceProvider.Handlers
import RemoteAttestation.ServiceProvider.Proxy
import RemoteAttestation.ServiceProvider.Options
import RemoteAttestation.ServiceProvider.Configuration
import RemoteAttestation.ServiceProvider.Server
import RemoteAttestation.ServiceProvider.TransportTrace
import RemoteAttestation.ServiceProvider.Environment
import RemoteAttestation.Report.Verification
import RemoteAttestation.Report.UrlDecode
import RemoteAttestation.Report.CertChain
import RemoteAttestation.ServiceProvider.Attestation
import RemoteAttestation.ServiceProvider.Message3
import RemoteAttestation.ServiceProvider.Message1
import RemoteAttestation.ServiceProvider.KeyFailover
import RemoteAttestation.ServiceProvider.PlainClient
import RemoteAttestation.ServiceProvider.TrustPolicy
import RemoteAttestation.ServiceProvider.Msg3Bounds
import RemoteAttestation.ServiceProvider.Message2
import RemoteAttestation.ServiceProvider.FailClosed
import RemoteAttestation.ServiceProvider.Authorisation
import RemoteAttestation.ServiceProvider.PolicyFile
import RemoteAttestation.ServiceProvider.StrictTrust
import RemoteAttestation.ServiceProvider.QuoteBinding
import RemoteAttestation.ServiceProvider.Verbosity
import RemoteAttestation.ServiceProvider.PlatformInfoBlob
import RemoteAttestation.ServiceProvider.SendIsolation
import RemoteAttestation.ServiceProvider.ReceiveIsolation
import RemoteAttestation.ServiceProvider.VerdictDelivery
import RemoteAttestation.Enclave.CiphertextTransport
import RemoteAttestation.Client.DoAttestation
import RemoteAttestation.Client.LayoutBounds
import RemoteAttestation.Client.Nonce
import RemoteAttestation.Client.SearchPath
import RemoteAttestation.ServiceProvider.StdioServer
import RemoteAttestation.Report.HttpParser
import RemoteAttestation.Report.AgentWget
import RemoteAttestation.Report.HttpMessage
import RemoteAttestation.Report.HttpAccepted
import RemoteAttestation.Report.HttpRoundTrip
import RemoteAttestation.Report.RequestBody
import RemoteAttestation.Transport.LineBuffer
import RemoteAttestation.Foundation.Delivery
import RemoteAttestation.Protocol.Receiving
import RemoteAttestation.Protocol.Turns
import RemoteAttestation.Protocol.Network
import RemoteAttestation.Protocol.Agreement
import RemoteAttestation.Protocol.Progress
import RemoteAttestation.Protocol.Completion
import RemoteAttestation.Protocol.EndToEnd
import RemoteAttestation.Protocol.Clients
import RemoteAttestation.Report.JsonText
import RemoteAttestation.Report.JsonTermination
import RemoteAttestation.Report.JsonObject
import RemoteAttestation.Report.JsonDump
import RemoteAttestation.ServiceProvider.ReportText
import RemoteAttestation.ServiceProvider.ReportDelivery
