import Tipcutils.Inventory.LifeCycle
import Tipcutils.Inventory.Sales
import Tipcutils.Inventory.IntCounters
import Tipcutils.Ptts.Rendezvous
import Tipcutils.Ptts.Dual
import Tipcutils.Benchmark.Barrier
import Tipcutils.Benchmark.Bounds
import Tipcutils.Benchmark.Agreement
import Tipcutils.Multicast.Apart
import Tipcutils.Multicast.Runs
import Tipcutils.Multicast.Losses
import Tipcutils.GroupCast.Replies
import Tipcutils.Pipe.Channels
import Tipcutils.Pipe.Senders
import Tipcutils.Tipclog.EventLogger
import Tipcutils.Tipcc.Ownership
import Tipcutils.Tipcc.Recvfrom
import Tipcutils.Tipcc.Scope
import Tipcutils.Tipcc.SecondHand
import Tipcutils.Ptts.Counts
import Tipcutils.Ptts.Transfer
import Tipcutils.Stream.RoundTrip
import Tipcutils.Stream.Language
import Tipcutils.Inventory.Reports
import Tipcutils.Inventory.StatusTimer
import Tipcutils.Inventory.Buffers
import Tipcutils.Pipe.PacketSize
import Tipcutils.Ptts.SendHelpers
import Tipcutils.Ptts.Blast
import Tipcutils.Ptts.BigStream
import Tipcutils.Ptts.Burst
import Tipcutils.Ptts.Arrangements
import Tipcutils.Ptts.Losses
import Tipcutils.GroupCast.Stats
import Tipcutils.Tipcc.Events
import Tipcutils.Tipcc.AddressBuffers
import Tipcutils.Pipe.TopologyClient
import Tipcutils.Ptts.SuiteRun
import Tipcutils.Pipe.BackToBack
import Tipcutils.Inventory.Pause
import Tipcutils.Ptts.Mcast
import Tipcutils.Benchmark.Completion
import Tipcutils.Lib.Files
import Tipcutils.Pipe.MultiServer
import Tipcutils.Benchmark.Sessions
import Tipcutils.Scripts.Bearers
