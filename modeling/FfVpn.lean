import FfVpn.Library.CopyLoop
import FfVpn.Library.Frames
import FfVpn.Library.Json
import FfVpn.Library.JsonOrder
import FfVpn.Library.JsonPretty
import FfVpn.Library.JsonShape
import FfVpn.Library.Linearizable
import FfVpn.Library.Stream
import FfVpn.Library.StreamPieces
import FfVpn.Library.Transition
import FfVpn.Library.Utf16
import FfVpn.Library.Watch
import FfVpn.Model.ArtiRuntime
import FfVpn.Model.Attachment
import FfVpn.Model.BytePump
import FfVpn.Model.Config
import FfVpn.Model.ConfigFile
import FfVpn.Model.ConfigService
import FfVpn.Model.ConfigStore
import FfVpn.Model.Controller
import FfVpn.Model.CountryScreen
import FfVpn.Model.Dns
import FfVpn.Model.DnsServer
import FfVpn.Model.Engine
import FfVpn.Model.Hops
import FfVpn.Model.ImportScreen
import FfVpn.Model.Ipc
import FfVpn.Model.IpcStream
import FfVpn.Model.IpcWire
import FfVpn.Model.LeafConfig
import FfVpn.Model.LeafText
import FfVpn.Model.Listener
import FfVpn.Model.MainActivity
import FfVpn.Model.PacketTunnel
import FfVpn.Model.PerApp
import FfVpn.Model.PerAppVisits
import FfVpn.Model.Ports
import FfVpn.Model.Runtime
import FfVpn.Model.Service
import FfVpn.Model.ServiceProcess
import FfVpn.Model.Session
import FfVpn.Model.Socks
import FfVpn.Model.SocksConn
import FfVpn.Model.StartConfig
import FfVpn.Model.StatusChannel
import FfVpn.Model.Util
import FfVpn.Analysis.Allowlist
import FfVpn.Analysis.ArtiStreams
import FfVpn.Analysis.CallProgress
import FfVpn.Analysis.CancelWakeup
import FfVpn.Analysis.ConcurrentImports
import FfVpn.Analysis.ConfigAgreement
import FfVpn.Analysis.ConfigFile
import FfVpn.Analysis.CountryScreen
import FfVpn.Analysis.DeadStage
import FfVpn.Analysis.Decoding
import FfVpn.Analysis.Descriptor
import FfVpn.Analysis.DevScreen
import FfVpn.Analysis.DnsLookups
import FfVpn.Analysis.DnsTransactions
import FfVpn.Analysis.EndOfStream
import FfVpn.Analysis.FailedBringUp
import FfVpn.Analysis.FailedConnect
import FfVpn.Analysis.FailedImport
import FfVpn.Analysis.HopAgreement
import FfVpn.Analysis.ImportScreen
import FfVpn.Analysis.ImportStart
import FfVpn.Analysis.IntentDelivery
import FfVpn.Analysis.IpText
import FfVpn.Analysis.IpcConversation
import FfVpn.Analysis.IpcGate
import FfVpn.Analysis.IpcSecrecy
import FfVpn.Analysis.LastIntent
import FfVpn.Analysis.LeafShutdown
import FfVpn.Analysis.LeafText
import FfVpn.Analysis.LogWindow
import FfVpn.Analysis.MemberOrder
import FfVpn.Analysis.Overlap
import FfVpn.Analysis.PacketTunnel
import FfVpn.Analysis.PerAppRouting
import FfVpn.Analysis.PerAppVisits
import FfVpn.Analysis.PortCollision
import FfVpn.Analysis.RefusedStart
import FfVpn.Analysis.Replies
import FfVpn.Analysis.ReplyFraming
import FfVpn.Analysis.RequestFraming
import FfVpn.Analysis.SessionEnd
import FfVpn.Analysis.Shapes
import FfVpn.Analysis.SlotInvariant
import FfVpn.Analysis.SlotLinearizable
import FfVpn.Analysis.SlotLiveness
import FfVpn.Analysis.SocketPath
import FfVpn.Analysis.SocksAddress
import FfVpn.Analysis.SocksGrammar
import FfVpn.Analysis.SocksTranscript
import FfVpn.Analysis.StartedRoute
import FfVpn.Analysis.StopJoins
import FfVpn.Analysis.StopRequest
import FfVpn.Analysis.Teardown
import FfVpn.Analysis.TokenMatch
import FfVpn.Analysis.TunDescriptor
import FfVpn.Analysis.UiConvergence
import FfVpn.Analysis.WindDown
