import Contiki.Rpl.P2pParents
import Contiki.Rpl.ParentChoice
import Contiki.Rpl.CandidateParent
import Contiki.Rpl.DroAcks
import Contiki.Rpl.Trickle
import Contiki.Rpl.RouteDraw
import Contiki.Net.Transparency
import Contiki.Net.Reassembled
import Contiki.Mac.CsmaDelivery
import Contiki.Sys.Expirations
import Contiki.Sys.Callbacks
import Contiki.Sys.ProcessList
import Contiki.Rime.ChameleonRoundtrip
import Contiki.Apps.CoapRoundtrip
import Contiki.Rime.RunicastReports
import Contiki.Rime.NetfloodOnce
import Contiki.Rime.RouteLoops
import Contiki.Rime.Rudolph1Chunks
import Contiki.Rpl.Divisors
import Contiki.Net.ExtOptions
import Contiki.Net.TcpOptions
import Contiki.Net.TcpUrgent
import Contiki.Rpl.RouteUpdate
import Contiki.Sicslowpan.Completion
import Contiki.Net.Resolv
import Contiki.Net.Split
import Contiki.Net.TcpRexmit
import Contiki.Rpl.MoVector
import Contiki.Rpl.DroRoutes
import Contiki.Rpl.DroCopies
import Contiki.Net.NeighborInfo
import Contiki.Cfs.LogTable
import Contiki.Cfs.FreePages
import Contiki.Net.DiscardedSolicitations
import Contiki.Rpl.DaoReads
import Contiki.Rpl.DaoNetwork
import Contiki.Net.Icmp6Error
import Contiki.Net.SolicitationCounts
import Contiki.Sys.EventQueue
import Contiki.Net.ReassWrites
import Contiki.Mac.FrameReads
import Contiki.Rime.CollectAges
import Contiki.Rime.RoutePairs
import Contiki.Rime.RouteLifetime
import Contiki.Rime.QueuedPackets
import Contiki.Core.Random
import Contiki.Core.Ringbuf
import Contiki.Core.Mmem
import Contiki.Core.Gcr
import Contiki.Rime.PoliteBuffers
import Contiki.Apps.CoapReads
import Contiki.Loader.Elfloader
