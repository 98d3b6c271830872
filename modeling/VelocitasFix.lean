import VelocitasFix.Channel.Agreement
import VelocitasFix.Engine.Acceptor
import VelocitasFix.Engine.Chunking
import VelocitasFix.Engine.Delivery
import VelocitasFix.Engine.Establishment
import VelocitasFix.Engine.Logon
import VelocitasFix.Engine.Logout
import VelocitasFix.Engine.CompIds
import VelocitasFix.Engine.Recovery
import VelocitasFix.Engine.TestRequest
import VelocitasFix.Journal.Reopen
import VelocitasFix.Parser.Completeness
import VelocitasFix.Parser.MsgType
import VelocitasFix.Parser.Arithmetic
import VelocitasFix.Serializer.Corruption
import VelocitasFix.Pool.Safety
import VelocitasFix.Transport.Aeron
import VelocitasFix.Transport.Socket
import VelocitasFix.Server.Release
import VelocitasFix.Server.PreRead
import VelocitasFix.Server.SendBuffer
import VelocitasFix.Journal.Scan
import VelocitasFix.Data.LengthPrefixed
import VelocitasFix.Data.Utf8
import VelocitasFix.Cluster.Impl
import VelocitasFix.Cluster.Election
import VelocitasFix.Cluster.Snapshot
import VelocitasFix.Cluster.Replication
import VelocitasFix.Transport.Exchange
import VelocitasFix.Acceptor.Isolation
import VelocitasFix.Dictionary.RoundTrip
import VelocitasFix.Dictionary.Required
import VelocitasFix.Fixt.Negotiation
import VelocitasFix.Group.Progress
import VelocitasFix.Group.RoundTrip
import VelocitasFix.Timestamp.Exact
import VelocitasFix.Journal.Oversize
import VelocitasFix.Message.Integers
import VelocitasFix.Serializer.BodyLength
import VelocitasFix.Session.Monotone
import VelocitasFix.Session.Probe
import VelocitasFix.Session.RateLimit
import VelocitasFix.Engine.FailedSend
import VelocitasFix.Engine.SessionLevel
import VelocitasFix.Pool.Single
import VelocitasFix.Journal.Alignment
import VelocitasFix.Journal.Crc
import VelocitasFix.Journal.Header
import VelocitasFix.Group.Conservation
import VelocitasFix.Group.Capacity
import VelocitasFix.Cluster.Run
import VelocitasFix.Acceptor.Limit
import VelocitasFix.Acceptor.StaleIds
import VelocitasFix.Transport.Refusal
import VelocitasFix.Fixt.Validation
import VelocitasFix.Dictionary.Lookup
import VelocitasFix.Serializer.Digits
import VelocitasFix.Simd.Scan
import VelocitasFix.Timestamp.AllDays
import VelocitasFix.Connection.Agreement
import VelocitasFix.Transport.Registry
import VelocitasFix.Pool.Tiered
import VelocitasFix.Trading.Trader
import VelocitasFix.Server.Exclusive
import VelocitasFix.Group.Wire
import VelocitasFix.Fixt.Handshake
import VelocitasFix.Timestamp.Clock
import VelocitasFix.Dashboard.Serving
import VelocitasFix.Cluster.Failover
import VelocitasFix.Engine.Keepalive
import VelocitasFix.Dictionary.Conformance
import VelocitasFix.Journal.Sessions
