import Aegs.Lib.SlidingWindow
import Aegs.Lib.Transition
import Aegs.Lib.Count
import Aegs.Lib.Bytes
import Aegs.Lib.Lease
import Aegs.Lib.StampedQueue
import Aegs.Lib.Ownership
import Aegs.Lib.RetryQueue
import Aegs.Lib.BoundedMap
import Aegs.Lib.Double
import Aegs.Lib.RuleTable
import Aegs.Replay.Filter
import Aegs.Replay.Window
import Aegs.Session.DataPath
import Aegs.Session.DeliverOnce
import Aegs.Session.Generation
import Aegs.Session.Handle
import Aegs.Session.ReaderEpoch
import Aegs.Session.Stale
import Aegs.Session.Shards
import Aegs.Session.Reclamation
import Aegs.Session.Downlink
import Aegs.Handshake.Client
import Aegs.Handshake.Server
import Aegs.Handshake.Agreement
import Aegs.Handshake.Replay
import Aegs.Handshake.Network
import Aegs.Handshake.Binding
import Aegs.Handshake.Pruning
import Aegs.Handshake.Queues
import Aegs.Handshake.Eviction
import Aegs.Handshake.KeyObjects
import Aegs.Server.IpPool
import Aegs.Server.Conservation
import Aegs.Server.Resumption
import Aegs.Server.Table
import Aegs.Server.Operations
import Aegs.Server.Ownership
import Aegs.Server.Control
import Aegs.Server.Removal
import Aegs.Server.Response
import Aegs.Server.DataPlane
import Aegs.Server.Unauthenticated
import Aegs.Server.Slots
import Aegs.Server.Dispatch
import Aegs.Server.Isolation
import Aegs.Server.Balancing
import Aegs.Server.Registry
import Aegs.Server.SingleUse
import Aegs.Server.PartialScan
import Aegs.Server.RateLimiter
import Aegs.Server.BanTable
import Aegs.Server.Responder
import Aegs.Wire.Shaper
import Aegs.Wire.Packet
import Aegs.Wire.Client
import Aegs.Wire.Android
import Aegs.Wire.Mimicry
import Aegs.Wire.Quic
import Aegs.Wire.TxBatch
import Aegs.Wire.Bounds
import Aegs.Wire.RoundTrip
import Aegs.Wire.Demux
import Aegs.Wire.PortHopper
import Aegs.Wire.Config
import Aegs.Bot.Billing
import Aegs.Wire.Router
import Aegs.Wire.Blackhole
import Aegs.Wire.Reality
import Aegs.Wire.Windows
import Aegs.Lib.Tls
import Aegs.Wire.Hello
import Aegs.Lib.Utf8
import Aegs.Lib.Inet
import Aegs.Lib.InPlace
import Aegs.Lib.CounterMode
import Aegs.Lib.ChaCha20
import Aegs.Lib.Checked
import Aegs.Tunnel.Packet
import Aegs.Tunnel.Codec
import Aegs.Tunnel.Streams
import Aegs.Tunnel.Filter
import Aegs.Tunnel.Window
import Aegs.Tunnel.Network
import Aegs.Tunnel.Receivers
import Aegs.Tunnel.Senders
import Aegs.Firewall.Commands
import Aegs.Firewall.KillSwitch
import Aegs.Firewall.Shield
import Aegs.Firewall.Undo
import Aegs.Firewall.Reversible
import Aegs.Firewall.Atomic
import Aegs.Firewall.Leaks
import Aegs.Lib.Long
import Aegs.Lib.LittleEndian
import Aegs.Lib.Poly1305
import Aegs.Wire.Authenticator
import Aegs.Lib.X25519
import Aegs.Wire.Curve25519
import Aegs.Bot.Lifecycle
import Aegs.Bot.Paying
import Aegs.Bot.Revocation
import Aegs.Server.Served
import Aegs.Wire.StreamCipher
import Aegs.Lib.CommandLine
import Aegs.Firewall.SafeExec
import Aegs.Firewall.Nat
import Aegs.Firewall.Lives
import Aegs.Client.Chaff
import Aegs.Client.Backpressure
import Aegs.Client.Loop
