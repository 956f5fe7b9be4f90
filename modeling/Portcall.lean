import Portcall.Finding
import Portcall.Text
import Portcall.Library.Classes
import Portcall.Library.InsertionMap
import Portcall.Library.Markup
import Portcall.Library.Walk
import Portcall.Library.Ways
import Portcall.Library.Json
import Portcall.Library.Double
import Portcall.Library.OptionMap
import Portcall.Library.Base64
import Portcall.Library.Cursor
import Portcall.Library.Segment
import Portcall.Library.SortByKey
import Portcall.Library.PrefixCode
import Portcall.Library.Delimited
import Portcall.Library.Fence
import Portcall.Library.GreedyFill
import Portcall.Library.PathWalk
import Portcall.Library.Glob
import Portcall.Library.RegExp
import Portcall.Library.Rearrangement
import Portcall.Library.InternetAddress
import Portcall.Library.Threads
import Portcall.Library.Ownership
import Portcall.Library.ThreadExceptions
import Portcall.Externals
import Portcall.Shared.RootIndex
import Portcall.Shared.LowerCase
import Portcall.Shared.DnIdentity
import Portcall.Profile
import Portcall.Seams
import Portcall.Engine
import Portcall.Environment
import Portcall.Egress.Classify
import Portcall.Egress.Probe
import Portcall.Dns.Analyse
import Portcall.Dns.AddressGrammar
import Portcall.Dns.AddressClass
import Portcall.Dns.Probe
import Portcall.Dns.ZonedAnswer
import Portcall.Proxy.NoProxy
import Portcall.Proxy.NoProxyRules
import Portcall.Net.ProxyConnect
import Portcall.Proxy.Auth
import Portcall.Proxy.Challenges
import Portcall.Proxy.Pac
import Portcall.Proxy.PacAnswers
import Portcall.Proxy.PacSandbox
import Portcall.Proxy.ShExpMatch
import Portcall.Proxy.PacHelpers
import Portcall.Proxy.Connect
import Portcall.Proxy.Probe
import Portcall.Proxy.Routes
import Portcall.Proxy.Accounting
import Portcall.Proxy.Clusters
import Portcall.Proxy.Partition
import Portcall.Proxy.Answered
import Portcall.Tls.PublicRoots
import Portcall.Tls.DnsNameMatch
import Portcall.Tls.Probe
import Portcall.Tls.IssuancePath
import Portcall.Tls.Evaluate
import Portcall.Tls.Reading
import Portcall.Tls.Handoff
import Portcall.Tls.Interleaving
import Portcall.Tls.Padding
import Portcall.Tls.PathVerdict
import Portcall.Tls.ValidityPath
import Portcall.Tls.Leading
import Portcall.Tls.IssuerWays
import Portcall.Tls.Completion
import Portcall.Tls.Reachability
import Portcall.Run.Derivation
import Portcall.Run.DocumentShape
import Portcall.Run.Signal
import Portcall.Truststore.Stores
import Portcall.Net.JavaKeystore
import Portcall.Net.JksEncoding
import Portcall.Net.KeystoreWalk
import Portcall.Net.KeystoreContents
import Portcall.Net.Pkcs12Encoding
import Portcall.Net.Pkcs12Nesting
import Portcall.Net.KeystoreBounds
import Portcall.Net.Pem
import Portcall.Net.RuntimeStores
import Portcall.Net.OsTruststore
import Portcall.Net.StoreChild
import Portcall.Net.PemScan
import Portcall.Net.PemCanonical
import Portcall.Net.ChildEvents
import Portcall.Net.StoreBudget
import Portcall.Net.Completeness
import Portcall.Truststore.Anchors
import Portcall.Truststore.OsFindings
import Portcall.Truststore.TrustSets
import Portcall.Truststore.RuntimeFindings
import Portcall.Net.PartialReads
import Portcall.Net.Discovery
import Portcall.Truststore.CrossCheck
import Portcall.Truststore.ReadTimeout
import Portcall.Truststore.Fallback
import Portcall.Truststore.Totality
import Portcall.Truststore.NameMatch
import Portcall.Truststore.Verdicts
import Portcall.Truststore.Reported
import Portcall.Truststore.EndToEnd
import Portcall.Truststore.LinuxReference
import Portcall.Truststore.Comparison
import Portcall.Truststore.OrderIndependence
import Portcall.Truststore.Monotone
import Portcall.Report.Types
import Portcall.Redact
import Portcall.Engine.Rollup
import Portcall.Net.Codes
import Portcall.Engine.ProbeError
import Portcall.Engine.Run
import Portcall.Report.Json
import Portcall.Report.JsonReading
import Portcall.Report.Text
import Portcall.Report.Wrap
import Portcall.Report.TextLines
import Portcall.Report.Html
import Portcall.Report.HtmlMarkup
import Portcall.Report.HtmlDocument
import Portcall.Report.Render
import Portcall.Cli.Check
import Portcall.Cli.Number
import Portcall.Cli.Args
import Portcall.Cli.Options
import Portcall.Cli.Rendering
import Portcall.Cli.Output
import Portcall.Cli.Main
import Portcall.Run.Noninterference
import Portcall.Run.Completion
import Portcall.Run.Emission
import Portcall.Run.Remediation
import Portcall.Run.Vocabulary
import Portcall.Run.TextClosed
import Portcall.Net.Wire
import Portcall.Net.Resolver
import Portcall.Net.Endpoint
import Portcall.Net.Tunnel
import Portcall.Net.TlsCapture
import Portcall.Net.PacFetch
import Portcall.Run.Concurrent
import Portcall.Run.Answers
import Portcall.Run.Conduct
import Portcall.Run.ProxyConduct
import Portcall.Run.Schedules
import Portcall.Run.Outcomes
