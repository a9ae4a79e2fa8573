import CodesSim.Base.RankTable
import Mathlib.Algebra.Order.Ring.Unbundled.Rat

/-!
# The express mesh: data

The express mesh of `express-mesh.cxx` is a mesh of routers with additional links: along a
dimension a router is linked to the next one in each direction and to those behind it at every
multiple of a gap.  Packets are cut into chunks.  A chunk needs space in the buffer of every port it
goes through, in one of the virtual channels (VCs) of the port, which is accounted for at the port
itself: `vcOccupancy` grows when a chunk gets a place and shrinks when the credit for it comes back
from the other end of the link.

* Terminals and routers are named by their kind and their relative id (`LpName`).
* `int`, `long`, `short` and `uint64_t` values are unbounded numbers, but for the bound that
  `routerPacketReceive` asserts (`HopsBelow`); arrays over ports and VCs are functions.  Times and
  bandwidths are rational numbers, and the C arithmetic on them is exact.
* The totals of a process are left out, and with them the bits and values saved for them, as are the
  fields that nothing but output reads (`packet_ID`, `hops`, `fwd_events`, ...).
-/

namespace CodesSim.Mesh

/-! ### Parameters -/

/-- `ROUTING_ALGO`. -/
inductive Routing where
  | static
  | adaptive
  deriving DecidableEq

/-- The parameters that the handlers read (`local_param`). -/
structure Param where
  /-- Terminals of a router. -/
  numCn : ℕ
  (numVcs vcSize cnVcSize chunkSize : ℕ)
  routing : Routing
  dimLength : List ℕ
  gap : ℕ
  (cnDelay linkDelay creditDelay routerDelay : STime)
  /-- `model_net_get_msg_sz`. -/
  msgSz : ℕ
  numCn_pos : 0 < numCn
  chunkSize_pos : 0 < chunkSize
  gap_pos : 0 < gap
  /-- `local_read_config` rejects other lengths. -/
  length_pos : ∀ len ∈ dimLength, 0 < len
  numVcs_pos : 0 < numVcs
  /-- `local_read_config` adds a VC if there is only one. -/
  adaptive_vcs : routing = .adaptive → 2 ≤ numVcs

theorem oneVc_static : Routing.static = .adaptive → 2 ≤ 1 := nofun

theorem twoInLine_length_pos : ∀ len ∈ [2], 0 < len := by decide

namespace Param

variable (p : Param)

def nDims : ℕ := p.dimLength.length

/-- The ports that a router has for a dimension; the division rounds towards zero. -/
def consPerDim (i : ℕ) : ℕ :=
  (2 + Int.tdiv ((p.dimLength.getD i 0 : ℤ) - 3) p.gap).toNat

/-- The first port of a dimension. -/
def offsetPerDim (i : ℕ) : ℕ := p.numCn + ((List.range i).map p.consPerDim).sum

def totalRouters : ℕ := p.dimLength.prod

def totalTerminals : ℕ := p.totalRouters * p.numCn

end Param

/-! ### Messages -/

/-- The LPs of the network. -/
inductive LpName where
  | terminal (id : ℕ)
  | router (id : ℕ)
  deriving DecidableEq, Inhabited

/-- The kinds of events (`event_t`). -/
inductive EventType where
  | tGenerate
  | tArrive
  | tSend
  | tBuffer
  | rSend
  | rArrive
  | rBuffer
  deriving DecidableEq, Inhabited

/-- What a chunk was sent by last (`last_hop`). -/
inductive LastHop where
  | router
  | terminal
  deriving DecidableEq, Inhabited

/-- The fields of a message in which a handler leaves what its reverse handler needs. -/
structure Saved where
  channel : ℕ
  vc : ℕ
  (availableTime avgTime rcvTime busyTime totalTime sampleTime : STime)
  deriving Inhabited

/-- A message (`em_message`) with the payloads behind it. -/
structure Msg where
  type : EventType
  category : String
  travelStartTime : STime
  msgStartTime : STime
  (finalDestGid senderLp senderMnLp : Lpid)
  (srcTerminalId destTerminal chunkId packetSize totalSize messageId : ℕ)
  isPull : Bool
  pullSize : ℕ
  remoteEvent : List UInt8
  localEvent : List UInt8
  myNHop : ℕ
  /-- The router the chunk was sent from last. -/
  intmLpId : LpName
  lastHop : LastHop
  /-- A port. -/
  vcIndex : ℕ
  /-- A virtual channel. -/
  outputChan : ℕ
  /-- A parked chunk needs room for two to go on. -/
  dimChange : Bool
  saved : Saved
  deriving Inhabited

/-- A chunk is the last one of its packet. -/
def Msg.IsLast (p : Param) (c : Msg) : Prop := c.chunkId = numChunks c.packetSize p.chunkSize - 1

instance (p : Param) (c : Msg) : Decidable (c.IsLast p) := inferInstanceAs (Decidable (_ = _))

def Msg.key (msg : Msg) : RankKey := ⟨msg.messageId, msg.senderLp⟩

/-! ### Handlers -/

/-- The bits that a forward handler leaves for the reverse handler (`tw_bf`). -/
structure Bf where
  (c1 c2 c3 c4 c5 c6 c7 c8 c11 c12 c21 c31 : Bool := false)

/-- What a handler sends: an event to an LP of the network, the idle event that asks the scheduler
for a packet, an event to another LP, or the reply to a pull. -/
inductive Out where
  | event (dest : LpName) (delay : STime) (msg : Msg)
  | idle (delay : STime)
  | server (dest : Lpid) (delay : STime) (data : List UInt8)
  | pull (destMnLp finalDest : Lpid) (size : ℕ) (startTime delay : STime) (data : List UInt8)

/-- What a handler finds around it. -/
structure Env where
  now : STime
  lookahead : STime
  /-- What the buffer of a new event holds before its fields are set. -/
  blank : Msg
  /-- The random numbers of the LP, by position: of `codes_local_latency`, and those of the other
  stream as `tw_rand_unif` and `tw_rand_integer` use them. -/
  latency : ℤ → STime
  unif : ℤ → STime
  rand : ℤ → ℕ
  /-- What lies behind the payloads in the buffer of the event handled. -/
  behind : ℕ → UInt8
  /-- The address of the memory that `malloc` returns. -/
  fresh : ℕ

/-- `tw_rand_integer(rng, 0, n - 1)` at position `pos`, as an index into a list. -/
def Env.pick {α : Type*} [Inhabited α] (env : Env) (pos : ℤ) (l : List α) : α :=
  l.getD (env.rand pos % l.length) default

/-- What a handler returns: the new state, the bits, the message it has written to and the events
it sends. -/
structure Result (σ : Type*) where
  state : σ
  bf : Bf
  msg : Msg
  outs : List Out

/-- The bytes of a chunk of a packet of `num` chunks. -/
def chunkBytes (p : Param) (c : Msg) (num : ℕ) : ℕ :=
  if c.packetSize % p.chunkSize ≠ 0 ∧ c.chunkId = num - 1 then c.packetSize % p.chunkSize
  else p.chunkSize

end CodesSim.Mesh
