import CodesSim.Lib.Dll
import CodesSim.Mesh.Terminal

/-!
# The router of an express mesh

The handlers of a router and their reverse handlers: `routerPacketReceive` chooses a port and a VC
for a chunk and puts it into the pending list there or parks it, `routerPacketSend` puts a chunk on
the link of a port, and `routerBufUpdate` takes a credit back and gives the place to a parked chunk.

With adaptive routing a parked chunk is also in the alternate queue of the port to which dimension
order routing would send it; from there it may leave by VC 0.  The pointers of the lists are part of
the state, since the reverse handlers rely on pointers of chunks that are in no list any more.  The
ends of the alternate queue of a port are those of its list of parked chunks for VC 0.
-/

namespace CodesSim.Mesh

open Function
open Dll (Links Ends)

/-! ### Coordinates and links -/

/-- `to_dim_id`. -/
def toDimId : ℕ → List ℕ → List ℕ
  | _, [] => []
  | id, len :: lens => id % len :: toDimId (id / len) lens

/-- `to_flat_id`. -/
def toFlatId : List ℕ → List ℕ → ℕ
  | len :: lens, x :: xs => x + len * toFlatId lens xs
  | _, _ => 0

namespace Param

variable (p : Param)

/-- The coordinates of a router. -/
def dimPosition (r : ℕ) : List ℕ := toDimId r p.dimLength

/-- The router at position `loc` is linked with the one at position `x` of the same line. -/
def Linked (x loc : ℕ) : Prop :=
  loc ≠ x ∧ (loc + 1 = x ∨ loc = x + 1 ∨ (loc < x ∧ (x - 1 - loc) % p.gap = 0) ∨
    (x < loc ∧ (loc - x - 1) % p.gap = 0))

instance (x loc : ℕ) : Decidable (p.Linked x loc) := inferInstanceAs (Decidable (_ ∧ _))

/-- The positions in dimension `i` with which position `x` is linked, in the order of the ports. -/
def neighbours (i x : ℕ) : List ℕ := (List.range (p.dimLength.getD i 0)).filter (p.Linked x)

/-- The dimension of a port that leads to a router. -/
def dimOf (port : ℕ) : Option ℕ :=
  (List.range p.nDims).reverse.find? fun i => p.offsetPerDim i ≤ port

/-- `create_router_connections`: what a port of router `r` leads to; `none` for a port that is not
connected. -/
def linkConnections (r port : ℕ) : Option LpName :=
  if port < p.numCn then some (.terminal (r * p.numCn + port))
  else (p.dimOf port).bind fun i =>
    let pos := p.dimPosition r
    (p.neighbours i (pos.getD i 0))[port - p.offsetPerDim i]?.map fun loc =>
      .router (toFlatId p.dimLength (pos.set i loc))

/-- The size of a buffer of a port. -/
def maxVcSize (port : ℕ) : ℕ := if p.numCn ≤ port then p.vcSize else p.cnVcSize

end Param

/-! ### The state -/

/-- A chunk in the memory of a router (`message_list`) but for its pointers. -/
structure Chunk where
  msg : Msg
  port : ℕ
  index : ℕ
  inAltQ : Bool
  altqPort : ℕ
  deriving Inhabited

/-- A router (`router_state`) with the memory of its chunks, which are named by their addresses, and
the positions of its random streams. -/
structure Router where
  chunks : ℕ → Option Chunk
  /-- `next` and `prev` of the chunks. -/
  links : Links ℕ
  /-- `altq_next` and `altq_prev` of the chunks. -/
  altLinks : Links ℕ
  /-- Chunks that have a place in the buffer of a port and VC. -/
  pendingMsgs : ℕ × ℕ → Ends ℕ
  /-- Chunks that wait for one; they hold their place at the port they came from. -/
  queuedMsgs : ℕ × ℕ → Ends ℕ
  vcOccupancy : ℕ × ℕ → ℤ
  inSendLoop : ℕ → ℕ
  queuedCount : ℕ → ℤ
  (nextOutputAvailableTime lastBufFull busyTime busyTimeSample : ℕ → STime)
  linkTraffic : ℕ → ℤ
  linkTrafficSample : ℕ → ℤ
  /-- The chunks put on a link, the last one first. -/
  st : List ℕ
  /-- Draws of `codes_local_latency`. -/
  latDraws : ℤ
  /-- Draws of `tw_rand_unif` and `tw_rand_integer`. -/
  rngDraws : ℤ

/-- `router_setup`. -/
def Router.init : Router where
  chunks _ := none
  links := .empty
  altLinks := .empty
  pendingMsgs _ := .empty
  queuedMsgs _ := .empty
  vcOccupancy _ := 0
  inSendLoop _ := 0
  queuedCount _ := 0
  nextOutputAvailableTime _ := 0
  lastBufFull _ := 0
  busyTime _ := 0
  busyTimeSample _ := 0
  linkTraffic _ := 0
  linkTrafficSample _ := 0
  st := []
  latDraws := 0
  rngDraws := 0

/-! ### Lists of chunks -/

/-- The lists of a router: by port and VC, or the alternate queue of a port. -/
inductive Lane where
  | pending (port vc : ℕ)
  | queued (port vc : ℕ)
  | alt (port : ℕ)
  deriving DecidableEq

namespace Router

variable (s : Router)

def linksOf : Lane → Links ℕ
  | .pending _ _ | .queued _ _ => s.links
  | .alt _ => s.altLinks

def endsOf : Lane → Ends ℕ
  | .pending port vc => s.pendingMsgs (port, vc)
  | .queued port vc => s.queuedMsgs (port, vc)
  | .alt port => s.queuedMsgs (port, 0)

/-- Write the pointers of a list. -/
def setList (x : Links ℕ × Ends ℕ) : Lane → Router
  | .pending port vc =>
    { s with links := x.1, pendingMsgs := update s.pendingMsgs (port, vc) x.2 }
  | .queued port vc =>
    { s with links := x.1, queuedMsgs := update s.queuedMsgs (port, vc) x.2 }
  | .alt port =>
    { s with altLinks := x.1, queuedMsgs := update s.queuedMsgs (port, 0) x.2 }

/-- `append_to_message_list`, `altq_append_to_message_list`. -/
def append (q : Lane) (a : ℕ) : Option Router :=
  (Dll.append (s.linksOf q) (s.endsOf q) a).map fun x => s.setList x q

/-- `prepend_to_message_list`, `altq_prepend_to_message_list`. -/
def prepend (q : Lane) (a : ℕ) : Router := s.setList (Dll.prepend (s.linksOf q) (s.endsOf q) a) q

/-- `return_head`, `altq_return_head`. -/
def returnHead (q : Lane) : Option (ℕ × Router) :=
  (Dll.returnHead (s.linksOf q) (s.endsOf q)).map fun x => (x.1, s.setList x.2 q)

/-- `return_tail`, `altq_return_tail`. -/
def returnTail (q : Lane) : Option (ℕ × Router) :=
  (Dll.returnTail (s.linksOf q) (s.endsOf q)).map fun x => (x.1, s.setList x.2 q)

/-- `delete_from_message_list`, `altq_delete_from_message_list`. -/
def delete (q : Lane) (a : ℕ) : Router := s.setList (Dll.delete (s.linksOf q) (s.endsOf q) a) q

/-- `add_to_message_list`, `altq_add_to_message_list`. -/
def putBack (q : Lane) (a : ℕ) : Router := s.setList (Dll.putBack (s.linksOf q) (s.endsOf q) a) q

/-- Write the other fields of a chunk. -/
def setChunk (a : ℕ) (c : Option Chunk) : Router := { s with chunks := update s.chunks a c }

/-- `init_message_list`: a chunk with no neighbours. -/
def newChunk (a : ℕ) (c : Chunk) : Router :=
  { s.setChunk a (some c) with links := s.links.reset a, altLinks := s.altLinks.reset a }

/-- The load of a port and VC as the routing compares them. -/
def load (port vc : ℕ) : ℤ := s.vcOccupancy (port, vc) + s.queuedCount port

end Router

/-! ### Routing -/

/-- A port and its dimension; there is none for a port to a terminal. -/
structure NextHop where
  dim : Option ℕ
  port : ℕ
  deriving Inhabited

namespace Param

variable (p : Param)

/-- The ports by which a chunk may go from position `x` towards position `dest` of dimension `i`:
straight there, or else to the last link before it or to the next position. -/
def portsTowards (i x dest : ℕ) : List ℕ :=
  let first : ℤ := if x = 0 then -1 else ((x - 1) % p.gap : ℕ)
  let low : ℤ := Int.tdiv (x - 1 - first) p.gap
  let port : ℤ := p.offsetPerDim i
  let edge : ℤ := if x = 0 then 1 else 0
  let ports : List ℤ :=
    if dest + 1 = x then [port + low]
    else if dest = x + 1 then [port + (1 + low) - edge]
    else if dest < x then
      if (x - 1 - dest) % p.gap = 0 then [port + Int.tdiv (dest - first) p.gap]
      else
        [if (dest : ℤ) < first then port else port + Int.tdiv (dest - first) p.gap + 1, port + low]
    else
      if (dest - x - 1) % p.gap = 0 then
        [port + (low + 1 + Int.tdiv (dest - x - 1) p.gap) - edge]
      else [port + low + 1 + Int.tdiv (dest - x - 1) p.gap - edge, port + 1 + low - edge]
  ports.map Int.toNat

/-- The dimensions in which two routers differ. -/
def differing (pos dest : List ℕ) : List ℕ :=
  (List.range p.nDims).filter fun i => pos.getD i 0 ≠ dest.getD i 0

/-- The ports among which the routing chooses: those of the first dimension in which the position
differs from the destination, with adaptive routing those of the others too. -/
def portOptions (pos dest : List ℕ) : List NextHop :=
  let dims := p.differing pos dest
  (if p.routing = .static then dims.take 1 else dims).flatMap fun i =>
    (p.portsTowards i (pos.getD i 0) (dest.getD i 0)).map (NextHop.mk (some i))

end Param

/-- The loop over ports and VCs for one with less load. -/
def Router.leastLoaded (s : Router) (hops : List NextHop) (vcs : List ℕ) (start : NextHop × ℕ) :
    NextHop × ℕ :=
  (hops.flatMap fun h => vcs.map fun v => (h, v)).foldl
    (fun best x => if s.load x.1.port x.2 < s.load best.1.port best.2 then x else best) start

/-- What `get_next_stop` returns. -/
structure NextStop where
  port : ℕ
  vc : ℕ
  srcDim : Option ℕ
  dstDim : Option ℕ
  /-- The port for the alternate queue, if the chunk has to wait. -/
  staticPort : Option ℕ

variable (p : Param) (env : Env) (self : ℕ)

/-- The dimension that a chunk comes from, if it does not come from a terminal; fails if the port it
was sent from is not one between routers. -/
def srcDimOf (msg : Msg) : Option (Option ℕ) :=
  if msg.lastHop = .terminal then some none else (p.dimOf msg.vcIndex).map some

/-- `get_next_stop`; `none` is a failed assertion. -/
def getNextStop (s : Router) (msg : Msg) : Option NextStop :=
  let options := p.portOptions (p.dimPosition self) (p.dimPosition (msg.destTerminal / p.numCn))
  (srcDimOf p msg).map fun srcDim =>
    match options with
    | [] => ⟨msg.destTerminal % p.numCn, 0, srcDim, none, none⟩
    | hop :: _ =>
      if p.routing = .static then
        let best := s.leastLoaded options (List.range p.numVcs) (hop, 0)
        ⟨best.1.port, best.2, srcDim, best.1.dim, none⟩
      else
        let dynamic := (List.range p.numVcs).drop 1
        let best := s.leastLoaded options dynamic (hop, 1)
        let firstDim := options.takeWhile fun h => h.dim = hop.dim
        let static := s.leastLoaded firstDim dynamic (hop, 1)
        ⟨best.1.port, best.2, srcDim, best.1.dim,
          if s.vcOccupancy (best.1.port, best.2) + p.chunkSize > p.vcSize then some static.1.port
          else none⟩

/-! ### Events sent -/

/-- The message that keeps the send loop of a port going. -/
def rSendMsg (port : ℕ) : Msg := { env.blank with type := .rSend, vcIndex := port }

@[simp] theorem rSendMsg_type (port : ℕ) : (rSendMsg env port).type = .rSend := rfl

@[simp] theorem rSendMsg_vcIndex (port : ℕ) : (rSendMsg env port).vcIndex = port := rfl

def rSendEvent (port : ℕ) (delay : STime) : Out := .event (.router self) delay (rSendMsg env port)

/-- The message of a credit for the place that a chunk held. -/
def creditMsg (type : EventType) (c : Msg) : Msg :=
  { env.blank with type := type, vcIndex := c.vcIndex, outputChan := c.outputChan }

@[simp] theorem creditMsg_type (type : EventType) (c : Msg) :
    (creditMsg env type c).type = type := rfl

/-- `router_credit_send`: the place of a chunk goes back to where it came from. -/
def routerCreditSend (pos : ℤ) (c : Msg) : Out :=
  let ts := env.lookahead + p.creditDelay + env.unif pos
  if c.lastHop = .terminal then .event (.terminal c.srcTerminalId) ts (creditMsg env .tBuffer c)
  else .event c.intmLpId ts (creditMsg env .rBuffer c)

/-! ### Arrival -/

/-- The room that a chunk needs: a new dimension needs twice its size, unless adaptive routing
leaves VC 0 for that. -/
def multFactor (stop : NextStop) : ℕ :=
  if p.routing = .static ∧ stop.dstDim ≠ none ∧ stop.srcDim ≠ stop.dstDim then 2 else 1

/-- There is room for a chunk. -/
def Router.HasRoom (s : Router) (stop : NextStop) : Prop :=
  s.vcOccupancy (stop.port, stop.vc) + multFactor p stop * p.chunkSize ≤ p.maxVcSize stop.port

instance (s : Router) (stop : NextStop) : Decidable (s.HasRoom p stop) :=
  inferInstanceAs (Decidable (_ ≤ _))

/-- The message of an event whose handler has chosen a port and VC. -/
def stopMsg (msg : Msg) (stop : NextStop) : Msg :=
  { msg with saved := { msg.saved with vc := stop.port, channel := stop.vc } }

@[simp] theorem stopMsg_type (msg : Msg) (stop : NextStop) :
    (stopMsg msg stop).type = msg.type := rfl

/-- A chunk that has made one hop more. -/
def hopMsg (msg : Msg) : Msg := { msg with myNHop := msg.myNHop + 1 }

/-- The part of `router_packet_receive` for a chunk that gets a place. -/
def receivePlaced (s : Router) (msg : Msg) (stop : NextStop) : Option (Result Router) :=
  let start := s.inSendLoop stop.port = 0
  ((s.newChunk env.fresh ⟨hopMsg msg, stop.port, stop.vc, false, 0⟩).append
      (.pending stop.port stop.vc) env.fresh).map fun s' =>
    { state := { s' with
        rngDraws := s.rngDraws + 1
        vcOccupancy := update s.vcOccupancy (stop.port, stop.vc)
          (s.vcOccupancy (stop.port, stop.vc) + p.chunkSize)
        latDraws := s.latDraws + if start then 1 else 0
        inSendLoop := if start then update s.inSendLoop stop.port 1 else s.inSendLoop }
      bf := { c2 := true, c3 := start }
      msg := stopMsg msg stop
      outs := routerCreditSend p env s.rngDraws msg ::
        if start then [rSendEvent env self stop.port (env.latency s.latDraws)] else [] }

/-- The alternate queue of a port has room for its first chunk. -/
def Router.HasEscape (s : Router) (port : ℕ) : Prop :=
  s.vcOccupancy (port, 0) + 2 * p.chunkSize ≤ p.vcSize

instance (s : Router) (port : ℕ) : Decidable (s.HasEscape p port) :=
  inferInstanceAs (Decidable (_ ≤ _))

/-- The chunk that has to wait for a port and VC, and perhaps in the alternate queue of a port. -/
def waitingChunk (msg : Msg) (stop : NextStop) (alt : Option ℕ) : Chunk :=
  ⟨{ hopMsg msg with dimChange := multFactor p stop ≠ 1 }, stop.port, stop.vc, alt.isSome,
    alt.getD 0⟩

/-- The part of `router_packet_receive` for a chunk that is parked, but for the alternate queue. -/
def parkChunk (s : Router) (msg : Msg) (stop : NextStop) (alt : Option ℕ) : Option Router :=
  ((s.newChunk env.fresh (waitingChunk p msg stop alt)).append (.queued stop.port stop.vc)
      env.fresh).map fun s' =>
    { s' with
      queuedCount := update s.queuedCount stop.port
        (s.queuedCount stop.port + p.chunkSize)
      lastBufFull := update s.lastBufFull stop.port env.now }

/-- The message of an event that parks a chunk. -/
def parkedMsg (s : Router) (msg : Msg) (stop : NextStop) : Msg :=
  stopMsg { msg with saved := { msg.saved with busyTime := s.lastBufFull stop.port } } stop

/-- The part of `router_packet_receive` for a chunk that is parked. -/
def receiveParked (s : Router) (msg : Msg) (stop : NextStop) : Option (Result Router) :=
  if p.routing = .static ∨ stop.dstDim = none then
    (parkChunk p env s msg stop none).map fun s' =>
      { state := s', bf := { c4 := true }, msg := parkedMsg s msg stop, outs := [] }
  else
    stop.staticPort.bind fun port => (parkChunk p env s msg stop (some port)).bind fun s' =>
      let start := s.HasEscape p port ∧ s.inSendLoop port = 0
      if port < p.numCn then none
      else (s'.append (.alt port) env.fresh).map fun s'' =>
        { state := { s'' with
            latDraws := s.latDraws + if start then 1 else 0
            inSendLoop := if start then update s.inSendLoop port 1 else s.inSendLoop }
          bf := { c4 := true, c6 := true, c5 := start }
          msg := parkedMsg s msg stop
          outs := if start then [rSendEvent env self port (env.latency s.latDraws)] else [] }

/-- What `router_packet_receive` asserts of a chunk that had made `n` hops before: the count of hops
is a `short`, the bound an `int`. -/
def HopsBelow (n : ℕ) : Prop :=
  Int.bmod (n + 1) (2 ^ 16) < Int.bmod (p.nDims * p.gap + 2) (2 ^ 32)

instance HopsBelow.decidable (n : ℕ) : Decidable (HopsBelow p n) := Int.decLt _ _

/-- `router_packet_receive`; `none` is a failed assertion.  `malloc` returns memory that is not in
use. -/
def routerPacketReceive (s : Router) (msg : Msg) : Option (Result Router) :=
  (getNextStop p self s msg).bind fun stop =>
    if p.routing ≠ .static ∧ stop.dstDim ≠ none ∧ stop.vc = 0 then none
    else if (s.chunks env.fresh).isSome then none
    else if HopsBelow p msg.myNHop then
      if s.HasRoom p stop then receivePlaced p env self s msg stop
      else receiveParked p env self s msg stop
    else none

/-! ### Departure -/

/-- The number of chunks as `router_packet_send` counts them: the remainder is that of the message
of the event, not that of the chunk. -/
def countedChunks (msg c : Msg) : ℕ :=
  let n := c.packetSize / p.chunkSize
  let n := if msg.packetSize % p.chunkSize ≠ 0 then n + 1 else n
  if n = 0 then 1 else n

/-- The message with which a chunk goes on from port `port` by VC `vc`. -/
def sentMsg (port vc : ℕ) (c : Msg) : Msg :=
  { c with
    lastHop := .router
    intmLpId := .router self
    vcIndex := port
    outputChan := vc
    type := if p.numCn ≤ port then .rArrive else .tArrive }

/-- The time at which the link of a port is free again after the chunk `c`; the router needs some
time more. -/
def Router.availableAfter (s : Router) (msg c : Msg) (port : ℕ) : STime :=
  max (s.nextOutputAvailableTime port) env.now + (env.lookahead + env.unif (s.rngDraws + 1) +
    (if p.numCn ≤ port then p.linkDelay else p.cnDelay) *
      chunkBytes p c (countedChunks p msg c) + p.routerDelay)

/-- What of the link of a port is the destination of a chunk; fails if the port leads to another
terminal. -/
def sendsTo (port : ℕ) (c : Msg) : Option LpName :=
  (p.linkConnections self port).bind fun dest =>
    if port < p.numCn ∧ dest ≠ .terminal c.destTerminal then none else some dest

/-- The message of an event that has put a chunk of VC `vc` on a link. -/
def usedMsg (s : Router) (msg : Msg) (vc : ℕ) : Msg :=
  { msg with
    outputChan := vc
    saved := { msg.saved with availableTime := s.nextOutputAvailableTime msg.vcIndex } }

/-- The part of `router_packet_send` that puts chunk `a`, which is in no list any more, on the link
by VC `vc`. -/
def putOnLink (s : Router) (msg : Msg) (a vc : ℕ) (bf : Bf) (outs : List Out) :
    Option (Result Router) :=
  let port := msg.vcIndex
  (s.chunks a).bind fun c => (sendsTo p self port c.msg).map fun dest =>
    let avail := s.availableAfter p env msg c.msg port
    let num := countedChunks p msg c.msg
    let odd := c.msg.packetSize % p.chunkSize ≠ 0 ∧ c.msg.chunkId = num - 1
    { state := { s with
        nextOutputAvailableTime := update s.nextOutputAvailableTime port
          (avail - p.routerDelay)
        linkTraffic := update s.linkTraffic port
          (s.linkTraffic port + chunkBytes p c.msg num)
        linkTrafficSample := update s.linkTrafficSample port
          (s.linkTrafficSample port + chunkBytes p c.msg num)
        st := a :: s.st
        rngDraws := s.rngDraws + 3 }
      bf := { bf with c11 := odd, c12 := ¬ odd }
      msg := usedMsg s msg vc
      outs := outs ++ [.event dest (avail - env.now) (sentMsg p self port vc c.msg),
        rSendEvent env self port
          (avail - env.now - p.routerDelay + env.lookahead * env.unif (s.rngDraws + 2))] }

/-- The first chunks of the pending lists of a port, with their VCs. -/
def Router.entries (s : Router) (port : ℕ) : List (ℕ × ℕ) :=
  (List.range p.numVcs).filterMap fun vc => (s.pendingMsgs (port, vc)).head.map (Prod.mk vc)

/-- A port without pending chunks takes one from its alternate queue. -/
def Router.Escapes (s : Router) (port : ℕ) : Prop :=
  p.numCn ≤ port ∧ p.routing ≠ .static ∧ s.HasEscape p port ∧ (s.queuedMsgs (port, 0)).head ≠ none

instance (s : Router) (port : ℕ) : Decidable (s.Escapes p port) :=
  inferInstanceAs (Decidable (_ ∧ _ ∧ _ ∧ _))

/-- The part of `router_packet_send` that takes a chunk from the alternate queue of a port: the
address of the chunk, the chunk, and the router without it. -/
def takeEscape (s : Router) (port : ℕ) : Option (ℕ × Chunk × Router) :=
  (s.returnHead (.alt port)).bind fun x => (x.2.chunks x.1).map fun c =>
    let s' := (x.2.setChunk x.1 (some { c with inAltQ := false })).delete
      (.queued c.port c.index) x.1
    (x.1, c, { s' with
      queuedCount := update s.queuedCount c.port (s.queuedCount c.port - p.chunkSize)
      vcOccupancy := update s.vcOccupancy (port, 0)
        (s.vcOccupancy (port, 0) + p.chunkSize)
      rngDraws := s.rngDraws + 1 })

/-- The message of an event that has taken the chunk `c` from an alternate queue. -/
def escapeMsg (msg : Msg) (c : Chunk) : Msg :=
  { msg with saved := { msg.saved with vc := c.port, channel := c.index } }

@[simp] theorem escapeMsg_type (msg : Msg) (c : Chunk) : (escapeMsg msg c).type = msg.type := rfl

@[simp] theorem escapeMsg_vcIndex (msg : Msg) (c : Chunk) :
    (escapeMsg msg c).vcIndex = msg.vcIndex := rfl

/-- `router_packet_send`; `none` is a failed assertion. -/
def routerPacketSend (s : Router) (msg : Msg) : Option (Result Router) :=
  let port := msg.vcIndex
  if s.entries p port = [] then
    if s.Escapes p port then
      (takeEscape p s port).bind fun x =>
        putOnLink p env self x.2.2 (escapeMsg msg x.2.1) x.1 0 { c21 := true }
          [routerCreditSend p env s.rngDraws x.2.1.msg]
    else
      some {
        state := { s with inSendLoop := update s.inSendLoop port 0 }
        bf := { c1 := true }
        msg := msg
        outs := [] }
  else
    let entry := env.pick s.rngDraws (s.entries p port)
    (s.returnHead (.pending port entry.1)).bind fun x =>
      putOnLink p env self x.2 msg x.1 entry.1 {} []

/-! ### Credits -/

/-- A credit is taken back, and the time for which the buffers were full is counted. -/
def Router.release (now : STime) (s : Router) (port vc : ℕ) : Router :=
  let full := s.lastBufFull port ≠ 0
  { s with
    vcOccupancy := update s.vcOccupancy (port, vc) (s.vcOccupancy (port, vc) - p.chunkSize)
    busyTime := if full then
      update s.busyTime port (s.busyTime port + (now - s.lastBufFull port)) else s.busyTime
    busyTimeSample := if full then
      update s.busyTimeSample port (s.busyTimeSample port + (now - s.lastBufFull port))
      else s.busyTimeSample
    lastBufFull := if full then update s.lastBufFull port 0 else s.lastBufFull }

/-- The chunk `c`, the first one parked for a port and VC, gets the place. -/
def Router.Passes (s : Router) (port vc : ℕ) (c : Chunk) : Prop :=
  c.msg.dimChange = false ∨ s.vcOccupancy (port, vc) + 2 * p.chunkSize ≤ p.maxVcSize port

instance (s : Router) (port vc : ℕ) (c : Chunk) : Decidable (s.Passes p port vc c) :=
  inferInstanceAs (Decidable (_ ∨ _))

/-- The ends of the parked chunks of a port and VC are those of the alternate queue of the port. -/
def Param.IsAlt (port vc : ℕ) : Prop := p.routing ≠ .static ∧ vc = 0 ∧ p.numCn ≤ port

instance (port vc : ℕ) : Decidable (p.IsAlt port vc) := inferInstanceAs (Decidable (_ ∧ _ ∧ _))

/-- Chunk `a` leaves its alternate queue, if it is in one. -/
def Router.leaveAlt (s : Router) (a : ℕ) (c : Chunk) : Router :=
  if c.inAltQ then s.delete (.alt c.altqPort) a else s

/-- The part of `router_buf_update` that passes the place on to chunk `a`. -/
def passTo (s : Router) (port vc a : ℕ) (c : Chunk) : Option Router :=
  (s.returnHead (.queued port vc)).bind fun x =>
    let c' := { c with inAltQ := false, port := port, index := vc }
    (((x.2.leaveAlt a c).setChunk a (some c')).append (.pending port vc) a).map fun s' =>
      { s' with
        vcOccupancy := update s.vcOccupancy (port, vc)
          (s.vcOccupancy (port, vc) + p.chunkSize)
        queuedCount := update s.queuedCount port (s.queuedCount port - p.chunkSize)
        rngDraws := s.rngDraws + 1 }

/-- The chunk to which a credit is passed on, if there is one; fails if its memory is not in use. -/
def Router.passed (s : Router) (port vc : ℕ) : Option (Option (ℕ × Chunk)) :=
  if p.IsAlt port vc then some none
  else match (s.queuedMsgs (port, vc)).head with
    | none => some none
    | some a => (s.chunks a).map fun c => if s.Passes p port vc c then some (a, c) else none

/-- A credit starts the send loop of a port. -/
def Router.Resumes (s : Router) (port vc : ℕ) : Prop :=
  s.inSendLoop port = 0 ∧ ((s.pendingMsgs (port, vc)).head ≠ none ∨
    (s.HasEscape p port ∧ (s.queuedMsgs (port, 0)).head ≠ none))

instance (s : Router) (port vc : ℕ) : Decidable (s.Resumes p port vc) :=
  inferInstanceAs (Decidable (_ ∧ _))

/-- The send loop of a port is started if there is something to do. -/
def Router.resume (s : Router) (port vc : ℕ) : Router × List Out :=
  if s.Resumes p port vc then
    ({ s with
        latDraws := s.latDraws + 1
        inSendLoop := update s.inSendLoop port 1 },
      [rSendEvent env self port (env.latency s.latDraws)])
  else (s, [])

/-- The message of a credit that has made a port wait no longer. -/
def releasedMsg (s : Router) (msg : Msg) : Msg :=
  if s.lastBufFull msg.vcIndex ≠ 0 then
    { msg with saved := { msg.saved with
      rcvTime := s.busyTime msg.vcIndex
      busyTime := s.lastBufFull msg.vcIndex
      sampleTime := s.busyTimeSample msg.vcIndex } }
  else msg

/-- `router_buf_update`; `none` only if the lists are broken. -/
def routerBufUpdate (s : Router) (msg : Msg) : Option (Result Router) :=
  let port := msg.vcIndex
  let vc := msg.outputChan
  let s₁ := s.release p env.now port vc
  (s₁.passed p port vc).bind fun head =>
    match head with
    | none =>
      some {
        state := (s₁.resume p env self port vc).1
        bf := { c3 := s.lastBufFull port ≠ 0, c2 := s₁.Resumes p port vc }
        msg := releasedMsg s msg
        outs := (s₁.resume p env self port vc).2 }
    | some (a, c) => (passTo p s₁ port vc a c).map fun s₂ =>
      { state := (s₂.resume p env self port vc).1
        bf := {
          c3 := s.lastBufFull port ≠ 0
          c1 := true
          c21 := c.inAltQ
          c2 := s₂.Resumes p port vc }
        msg := releasedMsg s msg
        outs := routerCreditSend p env s₁.rngDraws c.msg :: (s₂.resume p env self port vc).2 }

/-- `router_event`; `none` is an error. -/
def routerEvent (s : Router) (msg : Msg) : Option (Result Router) :=
  match msg.type with
  | .rSend => routerPacketSend p env self s msg
  | .rArrive => routerPacketReceive p env self s msg
  | .rBuffer => routerBufUpdate p env self s msg
  | _ => none

/-! ### Reverse handlers -/

/-- `router_packet_receive_rc`; `none` is a failed assertion. -/
def routerPacketReceiveRc (s : Router) (bf : Bf) (msg : Msg) : Option Router :=
  let port := msg.saved.vc
  let vc := msg.saved.channel
  if bf.c2 then
    (s.returnTail (.pending port vc)).map fun x =>
      { x.2.setChunk x.1 none with
        rngDraws := s.rngDraws - 1
        vcOccupancy := update s.vcOccupancy (port, vc)
          (s.vcOccupancy (port, vc) - p.chunkSize)
        latDraws := s.latDraws - if bf.c3 then 1 else 0
        inSendLoop := if bf.c3 then update s.inSendLoop port 0 else s.inSendLoop }
  else if bf.c4 then
    (s.returnTail (.queued port vc)).bind fun x =>
      let s' := { x.2 with
        queuedCount := update s.queuedCount port (s.queuedCount port - p.chunkSize)
        lastBufFull := update s.lastBufFull port msg.saved.busyTime }
      if bf.c6 then
        (s.chunks x.1).bind fun c => (s'.returnTail (.alt c.altqPort)).bind fun y =>
          if c.inAltQ ∧ y.1 = x.1 then
            some { y.2.setChunk x.1 none with
              latDraws := s.latDraws - if bf.c5 then 1 else 0
              inSendLoop :=
                if bf.c5 then update s.inSendLoop c.altqPort 0 else s.inSendLoop }
          else none
      else some (s'.setChunk x.1 none)
  else some s

/-- The part of `router_packet_send_rc` that puts the chunk `a` back. -/
def takeBack (s : Router) (bf : Bf) (msg : Msg) (a : ℕ) (c : Chunk) : Router :=
  let port := msg.vcIndex
  if bf.c21 then
    let c' := { c with port := msg.saved.vc, index := msg.saved.channel, inAltQ := true }
    let s' := ((s.setChunk a (some c')).prepend (.alt port) a).putBack
      (.queued msg.saved.vc msg.saved.channel) a
    { s' with
      vcOccupancy := update s.vcOccupancy (port, 0) (s.vcOccupancy (port, 0) - p.chunkSize)
      queuedCount := update s.queuedCount msg.saved.vc
        (s.queuedCount msg.saved.vc + p.chunkSize)
      rngDraws := s.rngDraws - 1 }
  else
    (s.setChunk a (some { c with port := port, index := msg.outputChan })).prepend
      (.pending port msg.outputChan) a

/-- `router_packet_send_rc`; `none` is an empty stack. -/
def routerPacketSendRc (s : Router) (bf : Bf) (msg : Msg) : Option Router :=
  let port := msg.vcIndex
  if bf.c1 then some { s with inSendLoop := update s.inSendLoop port 1 }
  else
    match s.st with
    | [] => none
    | a :: st => (s.chunks a).map fun c =>
      let bytes : ℤ := (if bf.c11 then ((c.msg.packetSize % p.chunkSize : ℕ) : ℤ) else 0) +
        if bf.c12 then (p.chunkSize : ℤ) else 0
      takeBack p { s with
        rngDraws := s.rngDraws - 3
        nextOutputAvailableTime :=
          update s.nextOutputAvailableTime port msg.saved.availableTime
        st := st
        linkTraffic := update s.linkTraffic port (s.linkTraffic port - bytes)
        linkTrafficSample := update s.linkTrafficSample port
          (s.linkTrafficSample port - bytes) } bf msg a c

/-- The part of `router_buf_update_rc` that takes the place from a chunk again. -/
def unpass (s : Router) (bf : Bf) (port vc : ℕ) : Option Router :=
  (s.returnTail (.pending port vc)).bind fun x => (x.2.chunks x.1).map fun c =>
    let s' := if bf.c21 then x.2.putBack (.alt c.altqPort) x.1 else x.2
    let c' := { c with inAltQ := if bf.c21 then true else c.inAltQ, port := port, index := vc }
    let s'' := (s'.setChunk x.1 (some c')).prepend (.queued port vc) x.1
    { s'' with
      rngDraws := s.rngDraws - 1
      vcOccupancy := update s.vcOccupancy (port, vc)
        (s.vcOccupancy (port, vc) - p.chunkSize)
      queuedCount := update s.queuedCount port (s.queuedCount port + p.chunkSize) }

/-- `router_buf_update_rc`; `none` is a failed assertion. -/
def routerBufUpdateRc (s : Router) (bf : Bf) (msg : Msg) : Option Router :=
  let port := msg.vcIndex
  let vc := msg.outputChan
  let s₁ := { s with
    vcOccupancy := update s.vcOccupancy (port, vc) (s.vcOccupancy (port, vc) + p.chunkSize)
    busyTime := if bf.c3 then update s.busyTime port msg.saved.rcvTime else s.busyTime
    busyTimeSample := if bf.c3 then update s.busyTimeSample port msg.saved.sampleTime
      else s.busyTimeSample
    lastBufFull := if bf.c3 then update s.lastBufFull port msg.saved.busyTime
      else s.lastBufFull }
  (if bf.c1 then unpass p s₁ bf port vc else some s₁).map fun s₂ =>
    { s₂ with
      latDraws := s₂.latDraws - if bf.c2 then 1 else 0
      inSendLoop := if bf.c2 then update s₂.inSendLoop port 0 else s₂.inSendLoop }

/-- `router_rc_event_handler`. -/
def routerRcEventHandler (r : Result Router) : Option Router :=
  match r.msg.type with
  | .rSend => routerPacketSendRc p r.state r.bf r.msg
  | .rArrive => routerPacketReceiveRc p r.state r.bf r.msg
  | .rBuffer => routerBufUpdateRc p r.state r.bf r.msg
  | _ => some r.state

end CodesSim.Mesh
