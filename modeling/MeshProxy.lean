import MeshProxy.Core.Trace
import MeshProxy.Core.Binary32
import MeshProxy.Core.Varint
import MeshProxy.Proto.Messages
import MeshProxy.Core.GoMap
import MeshProxy.Core.Slice
import MeshProxy.Metrics.Store
import MeshProxy.Node.ConfigCache
import MeshProxy.Node.ReadLoop
import MeshProxy.Node.Link
import MeshProxy.Node.Handshake
import MeshProxy.Proxy.ChatCache
import MeshProxy.Proxy.ConfigReplay
import MeshProxy.Core.RWMutex
import MeshProxy.Proxy.HubLocks
import MeshProxy.Proxy.ReplayBuffer
import MeshProxy.Proxy.HubProgress
import MeshProxy.Proxy.Hub
import MeshProxy.Proxy.HubDelivery
import MeshProxy.Proxy.HubTraffic
import MeshProxy.Node.Publication
import MeshProxy.Node.IdentityUpdate
import MeshProxy.Node.Generations
import MeshProxy.Proxy.ReplayQueue
import MeshProxy.Proxy.ReplayOrder
import MeshProxy.Proxy.ClientLoops
import MeshProxy.Proxy.Outgoing
import MeshProxy.Metrics.Directory
import MeshProxy.Metrics.PublishedDirectory
import MeshProxy.Web.Dashboard
import MeshProxy.Web.FavoriteToggles
import MeshProxy.Proxy.Registry
import MeshProxy.Web.ChatHistory
import MeshProxy.Node.IdentityAgreement
import MeshProxy.Core.PrefixCode
import MeshProxy.Protocol.Grammar
import MeshProxy.Proxy.ChatSlice
import MeshProxy.Metrics.PubSub
import MeshProxy.Proxy.ConfigPhases
import MeshProxy.Node.UpsertSpec
import MeshProxy.Proxy.EchoSize
import MeshProxy.Proto.IdentityCodec
import MeshProxy.Proxy.CacheSizes
import MeshProxy.Web.Html
import MeshProxy.Web.Markup
import MeshProxy.Web.Injection
import MeshProxy.Config.Validate
import MeshProxy.Node.Backoff
import MeshProxy.Node.CacheGauge
import MeshProxy.Node.UnknownSender
import MeshProxy.Core.TagSplit
import MeshProxy.Telegram.Format
import MeshProxy.Web.Traceroute
import MeshProxy.Core.Stages
import MeshProxy.Core.Window
import MeshProxy.Metrics.Exposition
import MeshProxy.Metrics.MessageLog
import MeshProxy.Telegram.Bot
import MeshProxy.Core.EventStream
import MeshProxy.Core.Json
import MeshProxy.Web.Sse
import MeshProxy.Node.Accounting
import MeshProxy.Web.Api
import MeshProxy.Discovery.Advertiser
import MeshProxy.Node.Wire
import MeshProxy.Proxy.ClientWire
import MeshProxy.Web.ChatPanel
import MeshProxy.Web.MapMarkers
import MeshProxy.Web.TrafficChart
import MeshProxy.Core.Replay
import MeshProxy.Web.LateJoin
import MeshProxy.Proxy.HubDownstream
import MeshProxy.Proxy.HubUpstream
