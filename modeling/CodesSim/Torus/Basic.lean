import CodesSim.Base.RankTable
import Mathlib.Algebra.Order.Ring.Unbundled.Rat

/-!
# The torus network

A node of an n-dimensional torus (`torus.c`) has one output queue for each dimension and direction
(`queueOf`).  A packet is cut into chunks; a chunk is routed dimension by dimension
(`dimensionOrderRouting`) and needs a slot in the buffer of every queue it goes through.  The
buffer of a queue is accounted for at its own end: `buffer` grows when a chunk is given a slot and
shrinks when the credit for it comes back from the next node.

A chunk is in one of four kinds of lists of a queue: `terminalMsgs` (injected here, no slot yet),
`pendingMsgs` (has a slot and waits for the link), `queuedMsgs` (arrived along the dimension of the
queue, no slot yet) and `otherMsgs` (arrived along another dimension, no slot yet).  The last two
still hold the slot of the queue they came from.  To enter a ring a chunk needs two free slots
(bubble flow control), to go on in it one.

* Nodes are named by their relative ids (`codes_mapping_get_lp_relative_id`), and arrays over the
  queues are functions.  There is one virtual channel, as `torus_read_config` sets `num_vc`.
* An `int` that the code computes a node from is given by its 32 bits (`bits`), so a node is as it
  should be if it is below `numNodes`.  Other `int` counters are integers that are not reduced; the
  sums that are compared with the size of a buffer are (`HasRoom`).
* The totals of a process are left out.  The statistics by category and the collective operations
  are in `CodesSim.Torus.Reverse`; nothing modelled here reads them.
-/

namespace CodesSim.Torus

open Function

/-! ### Coordinates -/

/-- `to_dim_id`: the coordinates of a node. -/
def toDimId : ℕ → List ℕ → List ℕ
  | _, [] => []
  | flatId, len :: lens => flatId % len :: toDimId (flatId / len) lens

/-- The loop of `to_flat_id`, with the product of the lengths before. -/
def toFlatIdFrom : ℕ → List ℕ → List ℕ → ℕ
  | mult, len :: lens, x :: xs => x * mult + toFlatIdFrom (mult * len) lens xs
  | _, _, _ => 0

/-- `to_flat_id`: the node at given coordinates; the sum is an `int`. -/
def toFlatId (lens coords : List ℕ) : ℕ := toFlatIdFrom 1 lens coords % 2 ^ 32

/-- The 32 bits of an `int`. -/
def bits (i : ℤ) : ℕ := (i % 2 ^ 32).toNat

/-- A position of a ring, as the remainder of an `int`. -/
def ringPosition (i : ℤ) (len : ℕ) : ℕ := bits ((CodesMapping.wrapInt i).tmod len)

/-- The node one step down along dimension `j` (`neighbour_minus_lpID`). -/
def neighbourMinus (lens : List ℕ) (node j : ℕ) : ℕ :=
  let pos := toDimId node lens
  let len := lens.getD j 1
  toFlatId lens (pos.set j (ringPosition (pos.getD j 0 - 1 + len) len))

/-- The node one step up along dimension `j` (`neighbour_plus_lpID`). -/
def neighbourPlus (lens : List ℕ) (node j : ℕ) : ℕ :=
  let pos := toDimId node lens
  let len := lens.getD j 1
  toFlatId lens (pos.set j (ringPosition (pos.getD j 0 + 1 + len) len))

/-- The neighbour in a direction: 1 is up, 0 is down. -/
def neighbour (lens : List ℕ) (node dim dir : ℕ) : ℕ :=
  if dir = 1 then neighbourPlus lens node dim else neighbourMinus lens node dim

/-- The direction in which one dimension is travelled, if it is: the shorter way round, and from
the middle the way that does not wrap. -/
def dorDir (len x y : ℕ) : Option ℕ :=
  let diff : ℤ := x - y
  let half : ℤ := (len / 2 : ℕ)
  if diff > half then some 1
  else if diff < -half then some 0
  else if diff ≤ half ∧ diff > 0 then some 0
  else if diff ≥ -half ∧ diff < 0 then some 1
  else none

/-- The loop of `dimension_order_routing`: the first dimension in which the positions differ. -/
def dorScan : ℕ → List ℕ → List ℕ → List ℕ → Option (ℕ × ℕ)
  | i, len :: lens, x :: xs, y :: ys =>
    match dorDir len x y with
    | some dir => some (i, dir)
    | none => dorScan (i + 1) lens xs ys
  | _, _, _, _ => none

/-- `dimension_order_routing`: the dimension and the direction of the next hop; `none` is the
failed assertion when there is no hop to make. -/
def dimensionOrderRouting (lens : List ℕ) (node dest : ℕ) : Option (ℕ × ℕ) :=
  dorScan 0 lens (toDimId node lens) (toDimId dest lens)

/-- The queue of a dimension and a direction. -/
def queueOf (dim dir : ℕ) : ℕ := dir + dim * 2

/-! ### Data -/

/-- The parameters of the network (`torus_param`). -/
structure Param where
  dimLength : List ℕ
  /-- Size of the buffer of a queue in bytes. -/
  bufferSize : ℕ
  chunkSize : ℕ
  (headDelay creditDelay routerDelay cnDelay : STime)

/-- A chunk on its way (`nodes_message`), with the payloads behind the message. -/
structure Msg where
  category : String
  travelStartTime : STime
  packetId : ℕ
  finalDestGid : Lpid
  /-- Destination node. -/
  destLp : ℕ
  senderSvr : Lpid
  /-- The node the chunk was sent from last. -/
  senderNode : ℕ
  myNHop : ℕ
  /-- Dimension and direction of the queue of the chunk. -/
  sourceDim : ℕ
  (sourceDirection nextStop packetSize : ℕ)
  /-- The queue of `senderNode` whose slot a waiting chunk holds. -/
  savedQueue : ℤ
  chunkId : ℕ
  isPull : Bool
  (pullSize localEventSizeBytes remoteEventSizeBytes : ℕ)
  eventData : List UInt8
  deriving DecidableEq, Inhabited

/-- The events of a node (`nodes_event_t`). -/
inductive Event where
  | generate (msg : Msg)
  | arrival (msg : Msg)
  /-- The send loop of a queue goes on. -/
  | send (dim dir : ℕ)
  /-- A slot of a queue was given back. -/
  | credit (dim dir : ℕ)
  deriving DecidableEq

/-- What a node sends. -/
inductive Out where
  | node (dest : ℕ) (offset : STime) (e : Event)
  /-- A payload for a server. -/
  | server (dest : Lpid) (offset : STime) (bytes : List UInt8)
  /-- The answer to a pull (`model_net_event_mctx`). -/
  | pull (destNode : ℕ) (finalDest : Lpid) (size : ℕ) (bytes : List UInt8)

/-- The state of a node (`nodes_state`), with the numbers of random draws made. -/
structure Node where
  packetCounter : ℕ
  nextLinkAvailableTime : ℕ → STime
  /-- Bytes of the buffer of a queue that are taken. -/
  buffer : ℕ → ℤ
  terminalMsgs : ℕ → List Msg
  allTermLength : ℤ
  terminalLength : ℕ → ℤ
  queuedLength : ℕ → ℤ
  (pendingMsgs queuedMsgs otherMsgs : ℕ → List Msg)
  inSendLoop : ℕ → ℕ
  linkTraffic : ℕ → ℤ
  (finishedChunks finishedPackets totalHops : ℤ)
  totalTime : STime
  totalDataSz : ℤ
  busyTime : ℕ → STime
  /-- When the buffer of a queue became full, 0 if it is not. -/
  lastBufFull : ℕ → STime
  /-- Draws of `codes_local_latency`. -/
  latDraws : ℕ
  /-- Draws of `tw_rand_unif`. -/
  rngDraws : ℕ

/-- `torus_init`. -/
def Node.init : Node where
  packetCounter := 0
  nextLinkAvailableTime _ := 0
  buffer _ := 0
  terminalMsgs _ := []
  allTermLength := 0
  terminalLength _ := 0
  queuedLength _ := 0
  pendingMsgs _ := []
  queuedMsgs _ := []
  otherMsgs _ := []
  inSendLoop _ := 0
  linkTraffic _ := 0
  finishedChunks := 0
  finishedPackets := 0
  totalHops := 0
  totalTime := 0
  totalDataSz := 0
  busyTime _ := 0
  lastBufFull _ := 0
  latDraws := 0
  rngDraws := 0

/-- What an event finds around it: the time, and what the random streams of the node return. -/
structure Env where
  now : STime
  latency : ℕ → STime
  unif : ℕ → STime
  lookahead : STime

/-! ### Handlers -/

variable (p : Param) (env : Env) (self : ℕ)

/-- The buffer of a queue has room for `n` chunks; the sum is an `int`. -/
def HasRoom (buffer n : ℤ) : Prop := CodesMapping.wrapInt (buffer + n * p.chunkSize) ≤ p.bufferSize

instance HasRoom.decidable (buffer n : ℤ) : Decidable (HasRoom p buffer n) :=
  inferInstanceAs (Decidable (_ ≤ _))

/-- `credit_send` for the queue `dim`, `dir` of the node the chunk came from. -/
def creditSend (s : Node) (msg : Msg) (dim dir : ℕ) : Node × Out :=
  ({ s with rngDraws := s.rngDraws + 1 },
    .node msg.senderNode
      (11 / 10 * env.lookahead + p.creditDelay + env.unif s.rngDraws) (.credit dim dir))

/-- Start the send loop of a queue if it is not running, with a latency plus `extra`. -/
def startSend (s : Node) (dim dir : ℕ) (extra : STime) : Node × List Out :=
  let queue := queueOf dim dir
  if s.inSendLoop queue = 0 then
    ({ s with
        inSendLoop := update s.inSendLoop queue 1
        latDraws := s.latDraws + 1 },
      [.node self (env.latency s.latDraws + extra) (.send dim dir)])
  else (s, [])

/-- `packet_generate`: the chunks of a packet are put into a terminal list. -/
def packetGenerate (s : Node) (msg : Msg) : Option (Node × List Out) :=
  (dimensionOrderRouting p.dimLength self msg.destLp).map fun (dim, dir) =>
    let queue := queueOf dim dir
    let num := numChunks msg.packetSize p.chunkSize
    let msg := { msg with
      packetId := s.packetCounter
      myNHop := 0
      sourceDirection := dir
      sourceDim := dim
      nextStop := neighbour p.dimLength self dim dir
      savedQueue := -1 }
    let chunks := (List.range num).map fun j => { msg with chunkId := j }
    let s := { s with
      packetCounter := s.packetCounter + 1
      terminalMsgs := update s.terminalMsgs queue (s.terminalMsgs queue ++ chunks)
      terminalLength := update s.terminalLength queue
        (s.terminalLength queue + num * p.chunkSize)
      allTermLength := s.allTermLength + num * p.chunkSize }
    startSend env self s dim dir (p.cnDelay * msg.packetSize)

/-- Put a chunk on the link of its queue: the arrival at the next node, and the local event of the
last chunk of a packet.  Returns the offset of the arrival as well. -/
def transmit (s : Node) (queue : ℕ) (c : Msg) : Node × List Out × STime :=
  let num := numChunks c.packetSize p.chunkSize
  let isLast := c.chunkId = num - 1
  let ts := env.latency s.latDraws + p.headDelay + p.routerDelay
  let available := max (s.nextLinkAvailableTime queue) env.now + ts
  let offset := available - env.now
  let traffic := if c.packetSize % p.chunkSize ≠ 0 ∧ isLast then c.packetSize % p.chunkSize
    else p.chunkSize
  let arrival := { c with
    senderNode := self
    localEventSizeBytes := 0
    eventData := c.eventData.take c.remoteEventSizeBytes }
  let hasLocal := isLast ∧ c.localEventSizeBytes > 0
  ({ s with
      nextLinkAvailableTime := update s.nextLinkAvailableTime queue available
      linkTraffic := update s.linkTraffic queue (s.linkTraffic queue + traffic)
      latDraws := s.latDraws + if hasLocal then 2 else 1 },
    .node c.nextStop offset (.arrival arrival) ::
      (if hasLocal then [.server c.senderSvr (env.latency (s.latDraws + 1))
        ((c.eventData.drop c.remoteEventSizeBytes).take c.localEventSizeBytes)] else []),
    offset)

/-- The end of `packet_send`: the loop of the queue goes on if there is a chunk left. -/
def continueSend (s : Node) (dim dir : ℕ) (more : Bool) (ts : STime) : Node × List Out :=
  if more then
    ({ s with latDraws := s.latDraws + 1 },
      [.node self (ts + env.latency s.latDraws) (.send dim dir)])
  else ({ s with inSendLoop := update s.inSendLoop (queueOf dim dir) 0 }, [])

/-- `packet_send`: a chunk that has a slot goes first; an injected one needs two free slots. -/
def packetSend (s : Node) (dim dir : ℕ) : Node × List Out :=
  let queue := queueOf dim dir
  match s.pendingMsgs queue, s.terminalMsgs queue with
  | [], [] => ({ s with inSendLoop := update s.inSendLoop queue 0 }, [])
  | c :: rest, terminal =>
    let (s, outs, ts) := transmit p env self s queue c
    let s := { s with pendingMsgs := update s.pendingMsgs queue rest }
    let (s, outs') := continueSend env self s dim dir (!rest.isEmpty || !terminal.isEmpty) ts
    (s, outs ++ outs')
  | [], c :: rest =>
    if HasRoom p (s.buffer queue) 2 then
      let s := { s with buffer := update s.buffer queue (s.buffer queue + p.chunkSize) }
      let (s, outs, ts) := transmit p env self s queue c
      let s := { s with
        terminalMsgs := update s.terminalMsgs queue rest
        terminalLength := update s.terminalLength queue
          (s.terminalLength queue - p.chunkSize)
        allTermLength := s.allTermLength - p.chunkSize }
      let (s, outs') := continueSend env self s dim dir (!rest.isEmpty) ts
      (s, outs ++ outs')
    else
      let full := if s.queuedMsgs queue ≠ [] ∧ s.lastBufFull queue = 0 then env.now
        else s.lastBufFull queue
      ({ s with
          lastBufFull := update s.lastBufFull queue full
          inSendLoop := update s.inSendLoop queue 0 }, [])

/-- `packet_arrive` at the destination: the credit is sent back, and the last chunk of a packet
delivers the remote event. -/
def arriveHere (s : Node) (msg : Msg) : Node × List Out :=
  let ts := env.latency s.latDraws
  let hops := msg.myNHop + 1
  let s := { s with
    latDraws := s.latDraws + 1
    finishedChunks := s.finishedChunks + 1
    totalDataSz := s.totalDataSz + p.chunkSize }
  let (s, credit) := creditSend p env s msg msg.sourceDim msg.sourceDirection
  if msg.chunkId = numChunks msg.packetSize p.chunkSize - 1 then
    let payload := msg.eventData.take msg.remoteEventSizeBytes
    ({ s with
        totalTime := s.totalTime + (env.now - msg.travelStartTime)
        finishedPackets := s.finishedPackets + 1
        totalHops := s.totalHops + hops
        -- `model_net_event_mctx` draws a latency of its own
        latDraws := s.latDraws + if msg.remoteEventSizeBytes ≠ 0 ∧ msg.isPull then 1 else 0 },
      credit :: if msg.remoteEventSizeBytes = 0 then []
        else if msg.isPull then [.pull msg.senderNode msg.senderSvr msg.pullSize payload]
        else [.server msg.finalDestGid ts payload])
  else (s, [credit])

/-- `packet_arrive` on the way: the chunk gets a slot of its next queue, or waits for one. -/
def arriveTransit (s : Node) (msg : Msg) : Option (Node × List Out) :=
  (dimensionOrderRouting p.dimLength self msg.destLp).map fun (dim, dir) =>
    let queue := queueOf dim dir
    let msg := { msg with myNHop := msg.myNHop + 1 }
    let s := { s with
      latDraws := s.latDraws + 1
      finishedChunks := s.finishedChunks + 1 }
    let c := { msg with
      nextStop := neighbour p.dimLength self dim dir
      sourceDim := dim
      sourceDirection := dir
      eventData := msg.eventData.take msg.remoteEventSizeBytes }
    let full := if s.lastBufFull queue = 0 then env.now else s.lastBufFull queue
    let waiting := { c with savedQueue := queueOf msg.sourceDim msg.sourceDirection }
    let multfactor : ℤ := if msg.sourceDim ≠ dim then 2 else 1
    let (s, outs) :=
      if HasRoom p (s.buffer queue) multfactor then
        let (s, credit) := creditSend p env s msg msg.sourceDim msg.sourceDirection
        ({ s with
            buffer := update s.buffer queue (s.buffer queue + p.chunkSize)
            pendingMsgs := update s.pendingMsgs queue (s.pendingMsgs queue ++ [c]) },
          [credit])
      else if msg.sourceDim ≠ dim then
        ({ s with
            otherMsgs := update s.otherMsgs queue (s.otherMsgs queue ++ [waiting])
            lastBufFull := update s.lastBufFull queue full }, [])
      else
        ({ s with
            queuedMsgs := update s.queuedMsgs queue (s.queuedMsgs queue ++ [waiting])
            queuedLength := update s.queuedLength queue
              (s.queuedLength queue + p.chunkSize)
            lastBufFull := update s.lastBufFull queue full }, [])
    let (s, outs') := startSend env self s dim dir 0
    (s, outs ++ outs')

/-- `packet_arrive`. -/
def packetArrive (s : Node) (msg : Msg) : Option (Node × List Out) :=
  if self = msg.destLp then some (arriveHere p env s msg) else arriveTransit p env self s msg

/-- A waiting chunk is given a slot of the queue: the slot it held before is given back. -/
def grant (s : Node) (queue : ℕ) (c : Msg) : Node × List Out :=
  let saved := c.savedQueue.toNat
  let (s, credit) := creditSend p env s c (saved / 2) (saved % 2)
  ({ s with
      pendingMsgs := update s.pendingMsgs queue (s.pendingMsgs queue ++ [c])
      buffer := update s.buffer queue (s.buffer queue + p.chunkSize) }, [credit])

/-- The time for which the buffer was full ends. -/
def endBusy (s : Node) (queue : ℕ) : Node :=
  if s.lastBufFull queue ≠ 0 then
    { s with
      busyTime := update s.busyTime queue
        (s.busyTime queue + (env.now - s.lastBufFull queue))
      lastBufFull := update s.lastBufFull queue 0 }
  else s

/-- A free slot goes to the first chunk that waits to go on in the ring, or else to the first one
that waits to enter it, if there is another free slot. -/
def passOn (s : Node) (queue : ℕ) : Node × List Out :=
  match s.queuedMsgs queue with
  | c :: rest =>
    grant p env { s with
      queuedMsgs := update s.queuedMsgs queue rest
      queuedLength := update s.queuedLength queue
        (s.queuedLength queue - p.chunkSize) } queue c
  | [] =>
    if HasRoom p (s.buffer queue) 2 then
      match s.otherMsgs queue with
      | c :: rest =>
        grant p env { s with otherMsgs := update s.otherMsgs queue rest } queue c
      | [] => (s, [])
    else (s, [])

/-- `packet_buffer_process`: a slot came back and one waiting chunk may get it. -/
def packetBufferProcess (s : Node) (dim dir : ℕ) : Node × List Out :=
  let queue := queueOf dim dir
  let s := { s with buffer := update s.buffer queue (s.buffer queue - p.chunkSize) }
  let s := endBusy env s queue
  let (s, outs) := passOn p env s queue
  let (s, outs') := startSend env self s dim dir 0
  (s, outs ++ outs')

/-- `event_handler`, for the events of packets. -/
def handle (s : Node) : Event → Option (Node × List Out)
  | .generate msg => packetGenerate p env self s msg
  | .arrival msg => packetArrive p env self s msg
  | .send dim dir => some (packetSend p env self s dim dir)
  | .credit dim dir => some (packetBufferProcess p env self s dim dir)

end CodesSim.Torus
