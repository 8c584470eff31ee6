import IpRouter.Console.GroupDelete
import IpRouter.Console.RootDomain
import IpRouter.Console.RouteGroups
import IpRouter.DnsGate.Country
import IpRouter.DnsGate.Diagnostics
import IpRouter.DnsGate.DnsProxy
import IpRouter.DnsGate.EndToEnd
import IpRouter.DnsGate.GeoipRouter
import IpRouter.DnsGate.NormalizeDomain
import IpRouter.DnsGate.Routing
import IpRouter.DomainManager.Directory
import IpRouter.DomainManager.LongNames
import IpRouter.DomainManager.Managed
import IpRouter.DomainManager.ValidDomain
import IpRouter.MaxMindDb.Data
import IpRouter.MaxMindDb.Format
import IpRouter.MaxMindDb.Open
import IpRouter.MaxMindDb.SearchTree
import IpRouter.Netlink.Acknowledgement
import IpRouter.Netlink.AddAttribute
import IpRouter.Netlink.ChangeRoute
import IpRouter.Netlink.Messages
import IpRouter.Netlink.RouteDump
import IpRouter.RouteManager.Adding
import IpRouter.RouteManager.Atomicity
import IpRouter.RouteManager.Basic
import IpRouter.RouteManager.Codec
import IpRouter.RouteManager.Coherence
import IpRouter.RouteManager.Commuting
import IpRouter.RouteManager.Durability
import IpRouter.RouteManager.GlobalRoute
import IpRouter.RouteManager.Holding
import IpRouter.RouteManager.Loading
import IpRouter.RouteManager.MachineTimes
import IpRouter.RouteManager.Operations
import IpRouter.RouteManager.Outcomes
import IpRouter.RouteManager.RawLoading
import IpRouter.RouteManager.Reachable
import IpRouter.RouteManager.Recovery
import IpRouter.RouteManager.Restoring
import IpRouter.RouteManager.Retrying
import IpRouter.RouteManager.RoundTrip
import IpRouter.RouteManager.Service
import IpRouter.RouteManager.Storage
import IpRouter.RouteManager.Sweeping
import IpRouter.RouteService.Batches
import IpRouter.RouteService.CollectDomains
import IpRouter.RouteService.Deleting
import IpRouter.RouteService.Handlers
import IpRouter.RouteService.Requests
import IpRouter.RouteService.Schedule
import IpRouter.RouteService.SequentialAdd
import IpRouter.RouteService.SequentialDelete
import IpRouter.RouteService.TimeToLive
import IpRouter.RouteSocket.RouteDump
import IpRouter.Theory.BinaryTrie
import IpRouter.Theory.CodeUnits
import IpRouter.Theory.Distinct
import IpRouter.Theory.Fibers
import IpRouter.Theory.Framing
import IpRouter.Theory.Grouping
import IpRouter.Theory.Guarded
import IpRouter.Theory.Interp
import IpRouter.Theory.Loop
import IpRouter.Theory.Marks
import IpRouter.Theory.OrdMap
import IpRouter.Theory.Prog
import IpRouter.Theory.SharedRefs
import IpRouter.Theory.Text
import IpRouter.Theory.Wire
