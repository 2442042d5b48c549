import DnsFixtures.Dns.Octets
import DnsFixtures.Dns.Name
import DnsFixtures.Dns.Presentation
import DnsFixtures.Dns.Compression
import DnsFixtures.Dns.Message
import DnsFixtures.Dns.Truncation
import DnsFixtures.Dns.Codec
import DnsFixtures.Dns.Renaming
import DnsFixtures.Concurrency.Semaphore
import DnsFixtures.Concurrency.Program
import DnsFixtures.Concurrency.Process
import DnsFixtures.Cidr.Block
import DnsFixtures.Shell.Fields
import DnsFixtures.Python
import DnsFixtures.RecordTexts
import DnsFixtures.Dnspython
import DnsFixtures.Reference
import DnsFixtures.RecordData
import DnsFixtures.FreshFixtures
import DnsFixtures.Socket
import DnsFixtures.FreshTransport
import DnsFixtures.FaultProxy
import DnsFixtures.Handlers
import DnsFixtures.HealthCheck
import DnsFixtures.TcpProbe
import DnsFixtures.SessionTrace
import DnsFixtures.IpAddress
import DnsFixtures.ClientAccess
import DnsFixtures.RenderRecursion
import DnsFixtures.SessionGate
import DnsFixtures.Zone
import DnsFixtures.Shape
import DnsFixtures.Equiv.Names
import DnsFixtures.Equiv.Records
import DnsFixtures.Equiv.Catalogue
import DnsFixtures.Equiv.Answer
import DnsFixtures.Equiv.Steps
import DnsFixtures.Equiv.Renderable
import DnsFixtures.Equiv.Response
import DnsFixtures.Equiv.Reply
import DnsFixtures.Equiv.Recovery
import DnsFixtures.Equiv.AnswerFresh
import DnsFixtures.Equiv.Totality
import DnsFixtures.Equiv.Parity
import DnsFixtures.Equiv.Envelope
import DnsFixtures.Equiv.Consistency
import DnsFixtures.Equiv.Shape
import DnsFixtures.Equiv.Existence
import DnsFixtures.Equiv.QuestionName
import DnsFixtures.Equiv.Frames
import DnsFixtures.Equiv.Routing
import DnsFixtures.Equiv.Selection
import DnsFixtures.Equiv.Forwarding
import DnsFixtures.Equiv.Transcript
import DnsFixtures.Equiv.Batch
import DnsFixtures.Equiv.Reflection
import DnsFixtures.Equiv.Receiver
import DnsFixtures.Equiv.Truncated
import DnsFixtures.Equiv.Aliases
import DnsFixtures.Equiv.Renaming
import DnsFixtures.Equiv.Encoding
import DnsFixtures.Equiv.Accounting
import DnsFixtures.Equiv.FrameStream
import DnsFixtures.Equiv.QueryEncoding
import DnsFixtures.Equiv.Probe
import DnsFixtures.Equiv.Discrimination
import DnsFixtures.Equiv.Fallback
import DnsFixtures.Equiv.Access
import DnsFixtures.Equiv.Upstreams
import DnsFixtures.Equiv.Handlers
import DnsFixtures.Dialogue
import DnsFixtures.Equiv.SessionTrace
import DnsFixtures.Equiv.Dialogue
import DnsFixtures.Server
import DnsFixtures.Equiv.Server
import DnsFixtures.Equiv.Admission
import DnsFixtures.Equiv.Datagram
import DnsFixtures.Equiv.HealthCheck
import DnsFixtures.Equiv.Confinement
import DnsFixtures.Lifecycle
import DnsFixtures.Equiv.Lifecycle
import DnsFixtures.Dns.Authority
import DnsFixtures.Equiv.Database
import DnsFixtures.Equiv.Authority
import DnsFixtures.Shell.Lines
import DnsFixtures.LabEnvironment
import DnsFixtures.Equiv.LabEnvironment
import DnsFixtures.SmokeTest
import DnsFixtures.Equiv.SmokeTest
