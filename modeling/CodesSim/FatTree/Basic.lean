import CodesSim.Base.RankTable
import Mathlib.Algebra.Order.Ring.Unbundled.Rat

/-!
# The fat tree: data

The fat tree of `fattree.c` has terminals and switches on up to three levels.  A terminal has one
queue for each rail, and each rail ends at a switch of level 0.  A packet is cut into chunks; a
chunk goes up to a switch that has its destination below it, and then down.  It needs space in the
buffer of every port it goes through, which is accounted for at the port itself: `vcOccupancy` grows
when a chunk gets a place and shrinks when the credit for it comes back from the other end of the
link.

* Terminals and switches are named by their kind and a number of their kind (`LpName`).  The number
  of a terminal is what `codes_mapping_get_lp_relative_id` returns; that of a switch stands for its
  LP, with one for each rail.
* `int`, `long` and `short` values are unbounded integers, arrays over queues and ports are
  functions.  Times and bandwidths are rational numbers, and the C arithmetic on them is exact.
* The totals of a process are left out, and with them the bits and values saved for them, as are the
  fields of messages that nothing but output reads (`packet_ID`, `vc_off`, `intm_id`, ...).
-/

namespace CodesSim.FatTree

/-! ### Parameters -/

/-- `ROUTING_ALGO`. -/
inductive Routing where
  | static
  | adaptive
  deriving DecidableEq

/-- `RAIL_SELECTION_ALGO`. -/
inductive RailSelect where
  | dedicated
  | adaptive
  deriving DecidableEq

/-- The parameters that the handlers read (`fattree_param`). -/
structure Param where
  (ftType numLevels linkRepetitions numTerminals : ℕ)
  /-- Terminals below a switch of level 0 and below one of level 1. -/
  l0TermSize : ℕ
  (l1TermSize vcSize cnVcSize chunkSize numRails portsPerNic : ℕ)
  routing : Routing
  railSelect : RailSelect
  railSizeLimit : ℤ
  linkBandwidth : ℚ
  (cnDelay headDelay creditDelay routerDelay : STime)
  /-- `model_net_get_msg_sz`. -/
  msgSz : ℕ

/-- Conversion of an unsigned value to `int`. -/
def toInt (n : ℕ) : ℤ := Int.bmod n (2 ^ 32)

/-! ### Messages -/

/-- The LPs of the network. -/
inductive LpName where
  | terminal (id : ℕ)
  | switch (id : ℕ)
  deriving DecidableEq, Inhabited

/-- The kinds of events (`event_t`). -/
inductive EventType where
  | tGenerate
  | tArrive
  | tSend
  | tBuffer
  | sSend
  | sArrive
  | sBuffer
  deriving DecidableEq, Inhabited

/-- What a chunk was sent by last (`last_hop`). -/
inductive LastHop where
  | link
  | terminal
  deriving Inhabited

/-- The fields of a message in which a handler leaves what its reverse handler needs. -/
structure Saved where
  (availableTime busyTime sampleTime avgTime rcvTime totalTime : STime)
  deriving Inhabited

/-- A message (`fattree_message`) with the payloads behind it.  A chunk in a list of an LP is the
message it came with. -/
structure Msg where
  type : EventType
  category : String
  travelStartTime : STime
  msgStartTime : STime
  (finalDestGid senderLp senderMnLp : Lpid)
  destTerminalId : ℕ
  srcTerminalId : ℕ
  /-- The switch the chunk was sent from last. -/
  intmLpId : LpName
  lastHop : LastHop
  myNHop : ℕ
  /-- A queue of a terminal or a port of a switch. -/
  vcIndex : ℕ
  /-- The port of the last switch that a parked chunk holds; also the port or queue chosen by a
  handler. -/
  savedVc : ℕ
  railId : ℕ
  isPull : Bool
  (pullSize chunkId packetSize totalSize messageId : ℕ)
  remoteEvent : List UInt8
  localEvent : List UInt8
  saved : Saved
  deriving Inhabited

/-! ### States -/

def Msg.key (msg : Msg) : RankKey := ⟨msg.messageId, msg.senderLp⟩

/-- An entry of the stack for reverse computation of a terminal. -/
inductive RcEntry where
  | chunk (msg : Msg)
  | message (entry : HashEntry)

/-- A terminal (`ft_terminal_state`), with the positions of its random streams. -/
structure Terminal where
  packetCounter : ℕ
  packetGen : ℤ
  packetFin : ℤ
  /-- Bytes on the link of a rail or waiting for a port of the switch. -/
  vcOccupancy : ℕ → ℤ
  terminalAvailableTime : ℕ → STime
  stats : StatsArray
  terminalMsgs : ℕ → List Msg
  terminalLength : ℕ → ℤ
  inSendLoop : ℕ → ℕ
  /-- The scheduler waits until the queue has room. -/
  issueIdle : ℕ → ℕ
  st : List RcEntry
  rankTbl : RankKey → Option HashEntry
  rankTblPop : ℕ
  totalTime : STime
  (totalMsgSize totalHops finishedMsgs finishedChunks finishedPackets : ℤ)
  lastBufFull : ℕ → STime
  busyTime : ℕ → STime
  (finChunksSample dataSizeSample finHopsSample : ℤ)
  finChunksTime : STime
  busyTimeSample : STime
  /-- Draws of `codes_local_latency`. -/
  latDraws : ℤ
  /-- Draws of `tw_rand_unif` and `tw_rand_integer`. -/
  rngDraws : ℤ

/-- `ft_terminal_init`. -/
def Terminal.init : Terminal where
  packetCounter := 0
  packetGen := 0
  packetFin := 0
  vcOccupancy _ := 0
  terminalAvailableTime _ := 0
  stats := StatsArray.init
  terminalMsgs _ := []
  terminalLength _ := 0
  inSendLoop _ := 0
  issueIdle _ := 0
  st := []
  rankTbl _ := none
  rankTblPop := 0
  totalTime := 0
  totalMsgSize := 0
  totalHops := 0
  finishedMsgs := 0
  finishedChunks := 0
  finishedPackets := 0
  lastBufFull _ := 0
  busyTime _ := 0
  finChunksSample := 0
  dataSizeSample := 0
  finHopsSample := 0
  finChunksTime := 0
  busyTimeSample := 0
  latDraws := 0
  rngDraws := 0

/-- What a switch has for its ports (`switch_state`), with the positions of its random streams. -/
structure Switch where
  (nextOutputAvailableTime lastBufFull busyTime busyTimeSample : ℕ → STime)
  /-- Chunks that have a place in the buffer of the port. -/
  pendingMsgs : ℕ → List Msg
  /-- Chunks that wait for one; they hold their place at the port they came from. -/
  queuedMsgs : ℕ → List Msg
  queuedLength : ℕ → ℤ
  inSendLoop : ℕ → ℕ
  vcOccupancy : ℕ → ℤ
  linkTraffic : ℕ → ℤ
  /-- The chunks put on a link, the last one first. -/
  st : List Msg
  latDraws : ℤ
  rngDraws : ℤ

/-- The part of `switch_init` that resets the ports. -/
def Switch.init : Switch where
  nextOutputAvailableTime _ := 0
  lastBufFull _ := 0
  busyTime _ := 0
  busyTimeSample _ := 0
  pendingMsgs _ := []
  queuedMsgs _ := []
  queuedLength _ := 0
  inSendLoop _ := 0
  vcOccupancy _ := 0
  linkTraffic _ := 0
  st := []
  latDraws := 0
  rngDraws := 0

/-- The place of a switch in the tree, which `switch_init` sets and no handler changes. -/
structure SwitchConf where
  switchLevel : ℕ
  radix : ℕ
  /-- Ports in use; the first `numLcons` go down. -/
  numCons : ℕ
  (numLcons conPerLneigh conPerUneigh : ℕ)
  /-- The terminals or switches below. -/
  startLneigh : ℕ
  endLneigh : ℕ
  portConnections : ℕ → LpName
  /-- The forwarding table for static routing. -/
  lft : ℕ → ℤ

/-- The links of the network. -/
structure Topology where
  conf : ℕ → SwitchConf
  /-- The switch at the end of a rail of a terminal. -/
  switchLp : ℕ → ℕ → ℕ

/-! ### Handlers -/

/-- The bits that a forward handler leaves for the reverse handler (`tw_bf`). -/
structure Bf where
  (c1 c2 c3 c4 c5 c7 c8 c11 c12 c31 : Bool := false)

/-- What a handler sends: an event to an LP of the network, the idle event that asks the scheduler
of a queue for a packet, an event to another LP, or the reply to a pull. -/
inductive Out where
  | event (dest : LpName) (delay : STime) (msg : Msg)
  | idle (delay : STime) (queue : ℕ)
  | server (dest : Lpid) (delay : STime) (data : List UInt8)
  | pull (destMnLp finalDest : Lpid) (size : ℕ) (startTime delay : STime) (data : List UInt8)

/-- What a handler finds around it. -/
structure Env where
  now : STime
  lookahead : STime
  /-- What the buffer of a new event holds before its fields are set. -/
  blank : Msg
  /-- The random numbers of the LP, by position: of `codes_local_latency`, and those of the other
  stream as `tw_rand_unif` and `tw_rand_integer` use them. -/
  latency : ℤ → STime
  unif : ℤ → STime
  rand : ℤ → ℕ
  /-- What lies behind the payloads in the buffer of the event handled. -/
  behind : ℕ → UInt8

/-- `tw_rand_integer(rng, low, high - 1)` at position `pos`. -/
def Env.randInteger (env : Env) (pos : ℤ) (low high : ℕ) : ℕ := low + env.rand pos % (high - low)

/-- What a handler returns: the new state, the bits, the message it has written to and the events
it sends. -/
structure Result (σ : Type*) where
  state : σ
  bf : Bf
  msg : Msg
  outs : List Out

/-- The bytes of a chunk of a packet of `num` chunks. -/
def chunkBytes (p : Param) (c : Msg) (num : ℕ) : ℕ :=
  if c.packetSize % p.chunkSize ≠ 0 ∧ c.chunkId = num - 1 then c.packetSize % p.chunkSize
  else p.chunkSize

/-- A chunk is the last one of its packet. -/
def Msg.IsLast (p : Param) (c : Msg) : Prop := c.chunkId = numChunks c.packetSize p.chunkSize - 1

instance (p : Param) (c : Msg) : Decidable (c.IsLast p) := inferInstanceAs (Decidable (_ = _))

end CodesSim.FatTree
