import HttpdProxy.Lib.Returns
import HttpdProxy.Lib.Runs
import HttpdProxy.Lib.Feeding
import HttpdProxy.Lib.Delimited
import HttpdProxy.Lib.Checked
import HttpdProxy.Utils.Bytes
import HttpdProxy.Utils.Filled
import HttpdProxy.Utils.Buffer
import HttpdProxy.Utils.Net
import HttpdProxy.Parsers.RequestLine
import HttpdProxy.Checked.Doh
import HttpdProxy.Checked.RequestLine
import HttpdProxy.Parsers.StatusLine
import HttpdProxy.Parsers.Headers
import HttpdProxy.Parsers.Doh
import HttpdProxy.Utils.StringParser
import HttpdProxy.Utils.Base64
import HttpdProxy.Parsers.Sniffer
import HttpdProxy.Checked.Sniffer
import HttpdProxy.Proofs.SnifferBounds
import HttpdProxy.Parsers.PercyRequest
import HttpdProxy.Parsers.PercyResponse
import HttpdProxy.Client.Httpdctl
import HttpdProxy.Daemon.Metrics
import HttpdProxy.Daemon.Management
import HttpdProxy.Daemon.Selector
import HttpdProxy.Daemon.Connection
import HttpdProxy.Daemon.World
import HttpdProxy.Daemon.DohUtils
import HttpdProxy.States.Setup
import HttpdProxy.States.Relay
import HttpdProxy.Daemon.ConnectionsManager
import HttpdProxy.Daemon.Httpd
import HttpdProxy.Protocol.Moves
import HttpdProxy.Proofs.Ownership
import HttpdProxy.Proofs.Handlers
import HttpdProxy.Proofs.Daemon
import HttpdProxy.Protocol.Watched
import HttpdProxy.Proofs.Lives
import HttpdProxy.Proofs.Interests
import HttpdProxy.Protocol.Peers
import HttpdProxy.Proofs.Routing
import HttpdProxy.Proofs.Events
import HttpdProxy.Protocol.Stages
import HttpdProxy.Protocol.Streams
import HttpdProxy.Protocol.Flow
import HttpdProxy.Proofs.Fidelity
import HttpdProxy.Proofs.Tunnels
import HttpdProxy.Protocol.StatusTap
import HttpdProxy.Protocol.SnifferTap
import HttpdProxy.Proofs.Sniffing
import HttpdProxy.Proofs.Management
import HttpdProxy.Proofs.Capacity
import HttpdProxy.Daemon.Logger
import HttpdProxy.Proofs.Logging
import HttpdProxy.Proofs.Frames
import HttpdProxy.Daemon.Iteration
import HttpdProxy.Proofs.Iteration
import HttpdProxy.Proofs.Aborts
import HttpdProxy.Proofs.Overruns
import HttpdProxy.Lib.Paths
import HttpdProxy.Protocol.Histories
import HttpdProxy.Proofs.Itineraries
import HttpdProxy.Proofs.Ledger
import HttpdProxy.Proofs.Sweeps
import HttpdProxy.Proofs.Faults
import HttpdProxy.Proofs.Concurrency
import HttpdProxy.Proofs.RequestLines
import HttpdProxy.Proofs.StatusLines
import HttpdProxy.Proofs.HeaderSections
import HttpdProxy.Proofs.AcceptedRequests
import HttpdProxy.Proofs.RequestBounds
import HttpdProxy.Proofs.Authorities
import HttpdProxy.Proofs.OriginRequests
import HttpdProxy.Daemon.LoggerUtils
import HttpdProxy.Proofs.AccessLog
import HttpdProxy.Protocol.DnsMessages
import HttpdProxy.Proofs.Addresses
import HttpdProxy.Proofs.AnswerIndex
import HttpdProxy.Proofs.DnsBounds
import HttpdProxy.Proofs.DnsPositions
import HttpdProxy.Proofs.DnsResponses
import HttpdProxy.Proofs.DnsFraming
import HttpdProxy.Lib.Scanning
import HttpdProxy.Proofs.Keywords
import HttpdProxy.Proofs.PercyReplies
import HttpdProxy.Proofs.TypedSettings
import HttpdProxy.Proofs.KeywordSearch
import HttpdProxy.Proofs.Pop3Logins
import HttpdProxy.Proofs.Base64
import HttpdProxy.Proofs.BasicCredentials
import HttpdProxy.Proofs.DohQueries
import HttpdProxy.Daemon.FdSelector
import HttpdProxy.Daemon.MainLoop
import HttpdProxy.Lib.Refinement
import HttpdProxy.Lib.Judging
import HttpdProxy.Proofs.Descriptors
import HttpdProxy.Proofs.Rounds
import HttpdProxy.Proofs.Shutdown
import HttpdProxy.Proofs.Economy
import HttpdProxy.Proofs.Refusals
import HttpdProxy.Protocol.Replies
import HttpdProxy.Proofs.Resolutions
