import CodesSim.Analytic.Rollback
import CodesSim.Base.MessageList
import CodesSim.Base.NodeCopy
import CodesSim.Config.DumpRoundTrip
import CodesSim.Config.Equal
import CodesSim.Config.Faithful
import CodesSim.Config.InlineWorkload
import CodesSim.Config.Layouts
import CodesSim.Config.ReadUnits
import CodesSim.Config.TokenBuffer
import CodesSim.Congestion.Aggressors
import CodesSim.Dally.IntermediateGroup
import CodesSim.Dally.SelfCheck
import CodesSim.Dally.Token
import CodesSim.Dragonfly.Arrival
import CodesSim.FatTree.Delivery
import CodesSim.FatTree.LinkBytes
import CodesSim.Loggp.Timing
import CodesSim.Mapping.Counts
import CodesSim.Mapping.Destination
import CodesSim.Mesh.HopCount
import CodesSim.Mesh.Rollback
import CodesSim.NetMan.Connectivity
import CodesSim.NetMan.ValidHops
import CodesSim.Replay.Finish
import CodesSim.Replay.Rollback
import CodesSim.Resource.Pools
import CodesSim.Sched.Lookahead
import CodesSim.SimpleP2P.BusyTime
import CodesSim.Storage.Priorities
import CodesSim.Storage.Rollback
import CodesSim.Surrogate.FastForward
import CodesSim.Synthetic.Destinations
import CodesSim.Synthetic.Rollback
import CodesSim.Torus.Barrier
import CodesSim.Torus.Delivery
import CodesSim.Torus.Minimal
import CodesSim.Torus.Rollback
import CodesSim.Util.AllocFile
import CodesSim.Workload.Checkpoint
import CodesSim.Workload.Traffic
