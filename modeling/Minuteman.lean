import Minuteman.Library.ByteString
import Minuteman.Library.FallibleProgram
import Minuteman.Library.BoundedMap
import Minuteman.Library.Reassembly
import Minuteman.Datapath.Headers
import Minuteman.Datapath.Maps
import Minuteman.Loader.Operations
import Minuteman.Loader.SlotSafety
import Minuteman.Loader.Calls
import Minuteman.Loader.Runs
import Minuteman.Loader.Retry
import Minuteman.Datapath.Context
import Minuteman.Datapath.Affinity
import Minuteman.Datapath.Helpers
import Minuteman.Datapath.Fragmenter
import Minuteman.Datapath.FragmentSet
import Minuteman.Datapath.IcmpErrors
import Minuteman.Datapath.Encap
import Minuteman.Datapath.LanLocal
import Minuteman.Datapath.Decap
import Minuteman.Datapath.Programs
import Minuteman.Loader.GarbageCollection
import Minuteman.Migration.History
import Minuteman.Migration.Pinning
import Minuteman.Control.Controller
import Minuteman.Control.Softwire
import Minuteman.Control.System
import Minuteman.Control.Protocol
import Minuteman.Control.Continuation
import Minuteman.Control.Shadow
import Minuteman.Control.Agreement
import Minuteman.Control.StateChecks
import Minuteman.Migration.Occupancy
import Minuteman.Control.Recording
import Minuteman.Control.Gate
import Minuteman.Datapath.MssClamp
import Minuteman.Datapath.Transparency
import Minuteman.Datapath.Reflection
import Minuteman.Library.Interference
import Minuteman.PathMtu.Attribution
import Minuteman.PathMtu.Recycling
import Minuteman.PathMtu.Reporting
import Minuteman.Migration.Collection
import Minuteman.Loader.TornSlots
import Minuteman.Datapath.ErrorReplies
import Minuteman.Datapath.ErrorSteps
import Minuteman.Datapath.ErrorBudget
import Minuteman.Dhcpv4.Pool
import Minuteman.Dhcpv4.Handler
import Minuteman.Dhcpv4.Index
import Minuteman.Dhcpv4.Server
import Minuteman.Dhcpv4.Exclusivity
import Minuteman.Dhcpv4.World
import Minuteman.Dhcpv4.HeldReplies
import Minuteman.Dhcpv4.Durability
import Minuteman.Dhcpv6.Messages
import Minuteman.PrefixDelegation.IaPd
import Minuteman.PrefixDelegation.Timers
import Minuteman.PrefixDelegation.Lease
import Minuteman.Library.PhasedProcess
import Minuteman.Dhcpv6.Client
import Minuteman.Dhcpv6.Service
import Minuteman.Dhcpv6.Exchanges
import Minuteman.PrefixDelegation.Ladder
import Minuteman.AftrDiscovery.Discover
import Minuteman.LanPrefix.Carve
import Minuteman.LanPrefix.Reconcile
import Minuteman.Datapath.Trailers
import Minuteman.PathMtu.Relaying
import Minuteman.Hb46pp.Exchange
import Minuteman.Hb46pp.Rediscovery
import Minuteman.Netlink.Socket
import Minuteman.Library.FiniteMap
import Minuteman.NdProxy.State
import Minuteman.NdProxy.Proxy
import Minuteman.Library.TimedServer
import Minuteman.Radvd.Advertiser
import Minuteman.Radvd.Spacing
import Minuteman.Radvd.Restarts
import Minuteman.Datapath.RateLimit
import Minuteman.Datapath.TunnelErrors
import Minuteman.Datapath.ErrorFrames
import Minuteman.Datapath.NativeForwarding
import Minuteman.PathMtu.Watcher
import Minuteman.Dhcpv4.Allocation
import Minuteman.Dhcpv4.LeaseTimes
import Minuteman.Dhcpv6.Codec
import Minuteman.PrefixDelegation.Echo
import Minuteman.Dhcpv4.Wire
import Minuteman.Dhcpv4.Codec
import Minuteman.Dhcpv4.Packets
import Minuteman.Dhcpv4.Panics
import Minuteman.PrefixDelegation.Tree
import Minuteman.AftrDiscovery.DnsName
import Minuteman.Hb46pp.Redirects
import Minuteman.LanPrefix.Subnets
import Minuteman.Library.ByteOrder
import Minuteman.Netlink.Wire
import Minuteman.Radvd.Announcing
import Minuteman.WanExtend.Watch
import Minuteman.Netlink.Codec
import Minuteman.Dhcpv4.Frames
import Minuteman.DnsProxy.Listener
import Minuteman.DnsProxy.Relay
import Minuteman.Library.Linearization
import Minuteman.Datapath.Racing
import Minuteman.Library.NdOptions
import Minuteman.Radvd.Wire
import Minuteman.Control.Restart
import Minuteman.Radvd.Passed
import Minuteman.PrefixDelegation.Soundness
import Minuteman.LanPrefix.Numbering
import Minuteman.Library.Backoff
import Minuteman.Dhcpv6.Retransmission
import Minuteman.Datapath.Losses
