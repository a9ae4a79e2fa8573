import CodesSim.Sched.Basic
import Mathlib.Data.Rat.Floor

/-!
# The dragonfly network: data

The dragonfly network of `dragonfly-dally.cxx` has terminals and routers.  Routers form groups; a
router has local links to the routers of its group, global links to other groups and links to its
terminals.  A terminal has one or more rails, each of which ends at a router.  A packet is cut into
chunks of `chunkSize` bytes, and every chunk needs space in the virtual channel (VC) of each link
it takes.

This module has the parameters, the messages, the connection manager of a router and the frame that
the event handlers share.

* Network LPs are named by their kind and relative id (`LpName`); other LPs keep their global id.
* `int` and `long` counters are unbounded integers.  Sizes that the messages carry in 32 bits are
  natural numbers; `numChunksFor` wraps as the macro does.
* Times and bandwidths are rational numbers, and the C arithmetic on them is exact.
* The totals of a process, the samples for ROSS instrumentation and the
  counting windows are left out, as are congestion control (off), the surrogate (off) and link
  bandwidths stored with the connections; nothing modelled here reads them.
-/

namespace CodesSim.Dally

/-! ### Parameters -/

/-- How a terminal selects the rail for a packet (`RAIL_SELECTION_ALGO`). -/
inductive RailSelect where
  | congestion
  | path
  | dedicated
  | rand

/-- The parameters of the network (`dragonfly_param`). -/
structure Param where
  /-- Groups in a plane. -/
  numGroups : ℕ
  /-- Routers in a group. -/
  numRouters : ℕ
  /-- Compute nodes per router. -/
  numCn : ℕ
  (numGlobalChannels numParallelSwitchConns numRails numPlanes numInjectionQueues numQosLevels : ℕ)
  (chunkSize packetSize creditSize : ℕ)
  /-- Size of the message of an event (`model_net_get_msg_sz`). -/
  msgSz : ℕ
  (cnVcSize localVcSize globalVcSize : ℕ)
  /-- Allowed share of the bandwidth of a QoS level, in percent. -/
  qosBandwidths : ℕ → ℤ
  (cnBandwidth localBandwidth globalBandwidth : ℚ)
  (cnDelay localDelay globalDelay routerDelay cnCreditDelay localCreditDelay : STime)
  (globalCreditDelay : STime)
  railSelect : RailSelect
  /-- Whether `packet_arrive` tells the source the latency of a packet (`packet_latency_f`). -/
  notifyLatency : Bool
  chunkSize_pos : 0 < chunkSize
  numQosLevels_pos : 0 < numQosLevels
  /-- With other numbers no terminal finds its router. -/
  planes_eq : numPlanes = 1 ∨ numPlanes = numRails

namespace Param

variable (p : Param)

/-- Ports for local links. -/
def intraGrpRadix : ℕ := (p.numRouters - 1) * p.numParallelSwitchConns

/-- Ports for global links. -/
def globalRadix : ℕ := p.numGlobalChannels * p.numParallelSwitchConns

/-- Ports for terminals. -/
def cnRadix : ℕ := p.numCn * p.numRails / p.numPlanes

def radix : ℕ := p.intraGrpRadix + p.globalRadix + p.cnRadix

def totalRouters : ℕ := p.numGroups * p.numPlanes * p.numRouters

/-- VCs of a port. -/
def numVcs : ℕ := if p.numQosLevels > 1 then p.numQosLevels * 4 else 4

def vcsPerQos : ℕ := p.numVcs / p.numQosLevels

/-- `dfdally_get_assigned_router_id_from_terminal`: the router of a terminal on a rail. -/
def assignedRouterId (term rail : ℕ) : ℕ :=
  if p.numPlanes = 1 then term / p.numCn
  else term / p.numCn + rail * (p.totalRouters / p.numPlanes)

/-- The plane of a router. -/
def planeId (router : ℕ) : ℕ := router / (p.totalRouters / p.numPlanes)

/-- The group of a router. -/
def groupId (router : ℕ) : ℕ := router / p.numRouters

end Param

/-- `num_chunks_for`, in the arithmetic of `uint32_t`. -/
def numChunksFor (messageSize chunkSize : ℕ) : ℕ :=
  if messageSize = 0 then 1 else (messageSize + chunkSize - 1) % 2 ^ 32 / chunkSize

/-- `bytes_to_ns`. -/
def bytesToNs (bytes : ℕ) (gbPerS : ℚ) : STime := bytes / 1024 ^ 3 / gbPerS * 1000 ^ 3

/-- Conversion of a `double` to an `int`. -/
def truncate (x : ℚ) : ℤ := if 0 ≤ x then ⌊x⌋ else ⌈x⌉

/-- `bw_reset_window`. -/
def bwResetWindow : STime := 5000000

/-- The share of a bandwidth that `data` bytes in a window are, in percent. -/
def percentBw (data : ℤ) (bandwidth : ℚ) : ℤ :=
  truncate (data / (bandwidth * 1024 ^ 3 / 1000 ^ 3 * bwResetWindow) * 100)

/-! ### Messages -/

/-- The LPs of the network, by relative id. -/
inductive LpName where
  | terminal (id : ℕ)
  | router (id : ℕ)
  deriving DecidableEq, Inhabited

/-- The kinds of events (`event_t`) that the modelled handlers receive or send. -/
inductive EventType where
  | tGenerate
  | tArrive
  | tSend
  | tBuffer
  | tBandwidth
  | tNotify
  | rSend
  | rArrive
  | rBuffer
  | rBandwidth
  deriving DecidableEq, Inhabited

/-- What the last hop of a chunk was (`last_hop`). -/
inductive LastHop where
  | globalHop
  | localHop
  | terminalHop
  deriving DecidableEq, Inhabited

/-- `path_type`; -1 before the first router. -/
inductive PathType where
  | unset
  | minimal
  | nonMinimal
  deriving DecidableEq, Inhabited

/-- `Q_LOW`, the last level that has a name. -/
def qLow : ℕ := 2

/-- `qos_status` of a level. -/
inductive QosStatus where
  | active
  | overBw
  deriving DecidableEq

/-- The fields of a message in which a handler leaves what its reverse handler needs. -/
structure Saved where
  (lastSavedQos qosReset1 qosReset2 : ℤ)
  rcIsQosSet : Bool
  rcQosData : List (List ℤ)
  rcQosStatus : List (List QosStatus)
  sendLoop : ℕ
  (availableTime minLat avgTime rcvTime busyTime totalTime sampleTime busyTimeRoss : STime)
  (finChunksRoss lastInQueueTime nextPacketDelay processingTime lastReceivedTime : STime)
  (lastSentTime lastBufupdateTime : STime)
  deriving Inhabited

/-- A message (`terminal_dally_message`) with the payloads behind it.  A chunk in a list of an LP
is the message it came with. -/
structure Msg where
  type : EventType
  category : String
  travelStartTime : STime
  travelEndTime : STime
  packetId : ℕ
  (finalDestGid senderLp senderMnLp : Lpid)
  destTerminalLpid : LpName
  /-- Source and destination by terminal id. -/
  dfdallySrcTerminalId : ℕ
  dfdallyDestTerminalId : ℕ
  srcTerminalId : LpName
  (originRouterId myNHop myLHop myGHop myHopsCurGroup : ℕ)
  /-- Where a chunk that waits for a VC came from: port and VC of the last router. -/
  savedVc : ℕ
  savedChannel : ℕ
  nextStop : LpName
  thisRouterArrival : STime
  thisRouterPtpLatency : STime
  /-- The router the chunk was sent from last. -/
  intmLpId : LpName
  lastHop : LastHop
  isIntmVisited : Bool
  intmGrpId : Option ℕ
  (chunkId packetSize messageId totalSize : ℕ)
  remoteEvent : List UInt8
  localEvent : List UInt8
  /-- A port of a router, or a QoS level of a terminal. -/
  vcIndex : ℕ
  railId : ℕ
  /-- A VC. -/
  outputChan : ℕ
  isPull : Bool
  pullSize : ℕ
  pathType : PathType
  numRngs : ℕ
  saved : Saved
  deriving Inhabited

/-- `get_vcg_from_category`. -/
def vcgFromCategory (category : String) : Option ℕ :=
  if category = "high" then some 0 else if category = "medium" then some 1 else none

/-- The QoS level of a message: its category counts only if there are several levels. -/
def Param.vcg (p : Param) (msg : Msg) : Option ℕ :=
  if p.numQosLevels > 1 then vcgFromCategory msg.category else some 0

/-! ### Connections -/

/-- The kinds of connections (`ConnectionType`). -/
inductive ConnectionType where
  | connLocal
  | connGlobal
  | connTerminal
  | connInjection
  deriving DecidableEq

/-- A link as one of its ends sees it (`Connection`). -/
structure Connection where
  (port srcGid destGid destGroupId : ℕ)
  isFailed : Bool
  railOrPlanarId : ℕ
  connType : ConnectionType

/-- A connection manager, with its connections in the order in which they were added. -/
structure ConnMan where
  (maxIntraPorts maxInterPorts maxTerminalPorts : ℕ)
  conns : List Connection

namespace ConnMan

/-- `get_used_ports_for`. -/
def usedPortsFor (cm : ConnMan) (type : ConnectionType) : ℕ :=
  (cm.conns.filter fun c => c.connType = type).length

/-- The first port and the number of ports for a kind of connection. -/
def portRange (cm : ConnMan) : ConnectionType → ℕ × ℕ
  | .connLocal => (0, cm.maxIntraPorts)
  | .connGlobal => (cm.maxIntraPorts, cm.maxInterPorts)
  | .connTerminal => (cm.maxIntraPorts + cm.maxInterPorts, cm.maxTerminalPorts)
  | .connInjection => (0, 0)

/-- `add_connection` of the manager of a router: the connection gets the next port of its kind.
`none` if there are too many (or if it is an injection connection, which routers do not have). -/
def addConnection (cm : ConnMan) (conn : Connection) : Option ConnMan :=
  let used := cm.usedPortsFor conn.connType
  let (base, max) := cm.portRange conn.connType
  if used < max then
    some { cm with conns := cm.conns ++ [{ conn with port := base + used }] }
  else none

/-- The manager of a router of the network with the links `links`, added in this order. -/
def build (p : Param) (links : List Connection) : Option ConnMan :=
  links.foldlM addConnection ⟨p.intraGrpRadix, p.globalRadix, p.cnRadix, []⟩

end ConnMan

/-- The links of the network: the managers of the routers, built from lists of links, and the
injection connections of the terminals in the order of their map. -/
structure Topology (p : Param) where
  connMan : ℕ → ConnMan
  built : ∀ r, ∃ links, ConnMan.build p links = some (connMan r)
  injection : ℕ → List Connection
  /-- `is_link_failures_enabled`. -/
  linkFailures : Bool
  /-- Whether `get_valid_next_hops_conns` finds a path from a router to a router that the routing
  algorithm can take. -/
  hasValidPath : ℕ → ℕ → Bool
  /-- `get_shortest_dist_between_routers`. -/
  shortestDist : ℕ → ℕ → ℤ

/-! ### Handlers -/

/-- The bits that a forward handler leaves for the reverse handler (`tw_bf`). -/
structure Bf where
  (c1 c2 c3 c4 c5 c6 c7 c8 c11 c12 c13 c14 c15 c16 c21 c22 c28 c29 : Bool := false)

/-- What a handler sends: an event to an LP of the network, the idle event that asks the scheduler
of a queue for a packet, an event to another LP, or the reply to a pull. -/
inductive Out where
  | event (dest : LpName) (delay : STime) (msg : Msg)
  | idle (delay : STime) (queue : ℕ)
  | server (dest : Lpid) (delay : STime) (data : List UInt8)
  | pull (destMnLp finalDest : Lpid) (size : ℕ) (delay : STime) (data : List UInt8)

/-- What a handler finds around it. -/
structure Env where
  now : STime
  /-- What the buffer of a new event holds before its fields are set. -/
  blank : Msg
  /-- The random numbers of the LP, by position. -/
  rand : ℕ → ℕ
  /-- What an array on the stack holds before it is written. -/
  stack : ℕ → ℤ
  /-- What lies behind the payload in the buffer of the event handled. -/
  behind : ℕ → UInt8
  /-- `workloads_finished_flag`, which is set from outside. -/
  workloadsFinished : Bool

/-- `tw_rand_integer(rng, 0, n - 1)` at position `pos`. -/
def Env.randInteger (env : Env) (pos n : ℕ) : ℕ := env.rand pos % n

/-- What a handler returns: the new state, the bits, the message it has written to and the events
it sends. -/
structure Result (σ : Type*) where
  state : σ
  bf : Bf
  msg : Msg
  outs : List Out

end CodesSim.Dally
