import CodesSim.Torus.Credits

/-!
# Reverse computation in the torus

A node with everything its handlers write: the queues (`Node`), the statistics by category, the
collective operations and the stack for reverse computation.  A forward handler leaves bits (`Bf`)
and saved values (`Saved`) in its event, and the reverse handler undoes it from these.

* `eventHandler` is the forward handler and `nodeRcHandler` the reverse one.  The queues change as
  in `handle`.
* `fullSystem` is the network of these nodes; `packets` says that `system` is what it does with the
  packets.
* The totals of a process are left out, and with them the bits and values saved for them.
  `rc_stack_gc` only frees entries that no reverse handler can pop any more; it is left out too.
* The torus LPs are in one group, so the tree of the collective operations has all the nodes.
-/

namespace CodesSim.Torus

open Function

/-! ### Data -/

/-- The parameters that only statistics and collective operations read. -/
structure FullParam extends Param where
  linkBandwidth : ℚ
  /-- `model_net_get_msg_sz`. -/
  msgSz : ℕ

/-- All of `nodes_state`. -/
structure NodeState extends Node where
  stats : StatsArray
  /-- Written by no handler. -/
  nextCreditAvailableTime : ℕ → STime
  collectiveInitTime : STime
  /-- The server that has started the collective operation. -/
  originSvr : Lpid
  numFanNodes : ℤ
  /-- The chunks put on a link, the last one first. -/
  st : List Msg

def NodeState.init : NodeState where
  toNode := Node.init
  stats := StatsArray.init
  nextCreditAvailableTime _ := 0
  collectiveInitTime := 0
  originSvr := 0
  numFanNodes := 0
  st := []

/-- All events of a node. -/
inductive NodeEvent where
  | packet (e : Event)
  | collectiveInit (msg : Msg)
  | collectiveFanIn (msg : Msg)
  | collectiveFanOut (msg : Msg)
  deriving DecidableEq

/-- The bits that a forward handler leaves for the reverse handler (`tw_bf`). -/
structure Bf where
  (c1 c2 c3 c4 c5 c6 c8 c9 c10 c11 c13 c20 c21 c24 c30 c31 : Bool := false)

/-- The values that a forward handler leaves in its message. -/
structure Saved where
  (availableTime collectiveInitTime recvTime busyTime : STime)
  fanNodes : ℤ
  sourceChannel : ℕ
  /-- What `model_net_event_mctx` has returned: the number of its draws. -/
  eventRc : ℕ
  deriving Inhabited

/-- What a node sends. -/
inductive NodeOut where
  | packet (out : Out)
  | collective (dest : ℕ) (offset : STime) (e : NodeEvent)

/-- What a forward handler leaves: the state, the bits, the event and the values saved in it, and
the events sent. -/
structure Done where
  state : NodeState
  bf : Bf
  event : NodeEvent
  saved : Saved
  outs : List NodeOut

/-- What an event finds around it, with the exponential random numbers of the node. -/
structure FullEnv extends Env where
  exponential : ℕ → STime

variable (p : FullParam) (env : FullEnv) (self : ℕ)

/-! ### Packets, forward -/

/-- The statistics of a generated packet. -/
def MnStats.generated (msg : Msg) (st : MnStats) : MnStats :=
  let eventSize : ℤ := p.msgSz + msg.remoteEventSizeBytes + msg.localEventSizeBytes
  { st with
    sendCount := st.sendCount + 1
    sendBytes := st.sendBytes + msg.packetSize
    sendTime := st.sendTime + 1 / p.linkBandwidth * msg.packetSize
    maxEventSize := if st.maxEventSize < eventSize then eventSize else st.maxEventSize }

/-- The statistics of a finished packet. -/
def MnStats.received (now : STime) (msg : Msg) (st : MnStats) : MnStats :=
  { st with
    recvCount := st.recvCount + 1
    recvBytes := st.recvBytes + msg.packetSize
    recvTime := st.recvTime + (now - msg.travelStartTime) }

/-- `packet_generate`, with what it records. -/
def generateFwd (s : NodeState) (msg : Msg) (sv : Saved) : Option Done :=
  (dimensionOrderRouting p.dimLength self msg.destLp).bind fun (dim, dir) =>
  (packetGenerate p.toParam env.toEnv self s.toNode msg).bind fun r =>
  (updateStats s.stats msg.category (MnStats.generated p msg)).map fun stats =>
    { state := { s with toNode := r.1, stats := stats }
      bf := { c8 := s.inSendLoop (queueOf dim dir) = 0 }
      event := .packet (.generate { msg with
        packetId := s.packetCounter
        myNHop := 0
        sourceDirection := dir
        sourceDim := dim
        nextStop := neighbour p.dimLength self dim dir
        savedQueue := -1 })
      saved := sv
      outs := r.2.map .packet }

/-- The bits of `packet_send` about the chunk that is sent; `more` if there is a chunk left. -/
def sentBf (c : Msg) (isT more : Bool) : Bf :=
  let last := c.chunkId = numChunks c.packetSize p.chunkSize - 1
  let odd := c.packetSize % p.chunkSize ≠ 0 ∧ last
  { c3 := isT
    c6 := last ∧ c.localEventSizeBytes > 0
    c8 := !isT
    c9 := more
    c10 := !more
    c20 := odd
    c21 := ¬ odd
    c31 := isT }

/-- `packet_send`, with what it records. -/
def sendFwd (s : NodeState) (dim dir : ℕ) (sv : Saved) : Done :=
  let queue := queueOf dim dir
  let r := packetSend p.toParam env.toEnv self s.toNode dim dir
  let sent (bf : Bf) (sv : Saved) (st : List Msg) : Done :=
    ⟨{ s with toNode := r.1, st := st }, bf, .packet (.send dim dir), sv, r.2.map .packet⟩
  match s.pendingMsgs queue, s.terminalMsgs queue with
  | [], [] => sent { c1 := true } sv s.st
  | c :: rest, terminal =>
    sent (sentBf p c false (!rest.isEmpty || !terminal.isEmpty))
      { sv with availableTime := s.nextLinkAvailableTime queue } (c :: s.st)
  | [], c :: rest =>
    if HasRoom p.toParam (s.buffer queue) 2 then
      sent (sentBf p c true !rest.isEmpty)
        { sv with availableTime := s.nextLinkAvailableTime queue } (c :: s.st)
    else
      let full := s.queuedMsgs queue ≠ [] ∧ s.lastBufFull queue = 0
      sent { c4 := true, c24 := full }
        (if full then { sv with busyTime := s.lastBufFull queue } else sv) s.st

/-- `packet_arrive` at the destination, with what it records. -/
def arriveHereFwd (s : NodeState) (msg : Msg) (sv : Saved) : Option Done :=
  let r := arriveHere p.toParam env.toEnv s.toNode msg
  let done (stats : StatsArray) (bf : Bf) (sv : Saved) : Done :=
    { state := { s with toNode := r.1, stats := stats }
      bf := bf
      event := .packet (.arrival { msg with myNHop := msg.myNHop + 1 })
      saved := sv
      outs := r.2.map .packet }
  if msg.chunkId = numChunks msg.packetSize p.chunkSize - 1 then
    let pull := msg.remoteEventSizeBytes ≠ 0 ∧ msg.isPull
    (updateStats s.stats msg.category (MnStats.received env.now msg)).map fun stats =>
      done stats { c1 := true, c2 := true, c31 := pull }
        { sv with recvTime := s.totalTime, eventRc := if pull then 1 else sv.eventRc }
  else some (done s.stats { c1 := true } sv)

/-- `packet_arrive` on the way, with what it records. -/
def arriveTransitFwd (s : NodeState) (msg : Msg) (sv : Saved) : Option Done :=
  (dimensionOrderRouting p.dimLength self msg.destLp).bind fun (dim, dir) =>
  (arriveTransit p.toParam env.toEnv self s.toNode msg).map fun r =>
    let queue := queueOf dim dir
    let multfactor : ℤ := if msg.sourceDim ≠ dim then 2 else 1
    let room := HasRoom p.toParam (s.buffer queue) multfactor
    let full := ¬ room ∧ s.lastBufFull queue = 0
    { state := { s with toNode := r.1 }
      bf := {
        c6 := true
        c9 := room ∧ msg.sourceDim = dim
        c11 := room ∧ msg.sourceDim ≠ dim
        c30 := ¬ room ∧ msg.sourceDim = dim
        c8 := ¬ room ∧ msg.sourceDim ≠ dim
        c24 := full
        c13 := s.inSendLoop queue = 0 }
      event := .packet (.arrival { msg with myNHop := msg.myNHop + 1 })
      saved := { sv with
        sourceChannel := queue
        busyTime := if full then s.lastBufFull queue else sv.busyTime }
      outs := r.2.map .packet }

/-- `packet_buffer_process`, with what it records. -/
def creditFwd (s : NodeState) (dim dir : ℕ) (sv : Saved) : Done :=
  let queue := queueOf dim dir
  let r := packetBufferProcess p.toParam env.toEnv self s.toNode dim dir
  let full := s.lastBufFull queue ≠ 0
  { state := { s with toNode := r.1 }
    bf := {
      c2 := s.queuedMsgs queue ≠ []
      c3 := s.queuedMsgs queue = [] ∧
        HasRoom p.toParam (s.buffer queue - p.chunkSize) 2 ∧ s.otherMsgs queue ≠ []
      c5 := s.inSendLoop queue = 0
      c24 := full }
    event := .packet (.credit dim dir)
    saved := if full then
        { sv with busyTime := s.busyTime queue, recvTime := s.lastBufFull queue } else sv
    outs := r.2.map .packet }

/-! ### Collective operations, forward -/

/-- `TREE_DEGREE`. -/
def treeDegree : ℕ := 4

/-- The children of a node in the tree (`torus_collective_init`). -/
def children (numLps node : ℕ) : List ℕ :=
  ((List.range treeDegree).map fun i => treeDegree * node + i + 1).filter (· < numLps)

/-- The parent of a node; the root has none. -/
def parent (node : ℕ) : Option ℕ :=
  if node = 0 then none else some ((node - (node - 1) % treeDegree) / treeDegree)

/-- `LEVEL_DELAY`. -/
def levelDelay : STime := 1000

/-- `COLLECTIVE_COMPUTATION_DELAY`. -/
def collectiveComputationDelay : STime := 5700

/-- `TORUS_FAN_OUT_DELAY`. -/
def torusFanOutDelay : STime := 20

/-- The children of node `self`. -/
def myChildren : List ℕ := children (numNodes p.dimLength) self

/-- `send_remote_event`. -/
def collectiveRemote (s : NodeState) (msg : Msg) : List NodeOut :=
  if msg.remoteEventSizeBytes = 0 then []
  else [.packet (.server s.originSvr (1 / p.linkBandwidth * msg.remoteEventSizeBytes)
    (msg.eventData.take msg.remoteEventSizeBytes))]

/-- The message that goes up to the parent. -/
def fanInOut (parent : ℕ) (msg : Msg) : NodeOut :=
  .collective parent (env.lookahead + levelDelay) (.collectiveFanIn { msg with senderNode := self })

/-- The messages that go down to the children, each with a draw. -/
def fanOutOuts (s : NodeState) (base : STime) (msg : Msg) : List NodeOut :=
  (myChildren p self).zipIdx.map fun (child, i) =>
    .collective child (env.lookahead + base + env.exponential (s.rngDraws + i))
      (.collectiveFanOut { msg with senderNode := self })

/-- `node_collective_init`. -/
def collectiveInitFwd (s : NodeState) (msg : Msg) (sv : Saved) : Option Done :=
  let done (outs : List NodeOut) : Done :=
    { state := { s with collectiveInitTime := env.now, originSvr := msg.senderSvr }
      bf := {}
      event := .collectiveInit msg
      saved := { sv with collectiveInitTime := s.collectiveInitTime }
      outs := outs }
  if myChildren p self = [] then
    -- a leaf tells its parent; a root without children has none to tell
    (parent self).map fun up => done [fanInOut env self up msg]
  else some (done [])

/-- `node_collective_fan_in`. -/
def fanInFwd (s : NodeState) (msg : Msg) (sv : Saved) : Done :=
  let all := s.numFanNodes + 1 = (myChildren p self).length
  match parent self with
  | some up =>
    if all then
      { state := { s with numFanNodes := 0 }
        bf := { c1 := true }
        event := .collectiveFanIn msg
        saved := { sv with fanNodes := s.numFanNodes }
        outs := [fanInOut env self up msg] }
    else ⟨{ s with numFanNodes := s.numFanNodes + 1 }, {}, .collectiveFanIn msg, sv, []⟩
  | none =>
    if all then
      { state := { s with
          numFanNodes := 0
          rngDraws := s.rngDraws + (myChildren p self).length }
        bf := { c2 := true }
        event := .collectiveFanIn msg
        saved := { sv with fanNodes := s.numFanNodes }
        outs := collectiveRemote p s msg ++
          fanOutOuts p env self s (collectiveComputationDelay + levelDelay) msg }
    else ⟨{ s with numFanNodes := s.numFanNodes + 1 }, {}, .collectiveFanIn msg, sv, []⟩

/-- `node_collective_fan_out`. -/
def fanOutFwd (s : NodeState) (msg : Msg) (sv : Saved) : Done :=
  { state := { s with rngDraws := s.rngDraws + (myChildren p self).length }
    bf := { c1 := myChildren p self ≠ [] }
    event := .collectiveFanOut msg
    saved := sv
    outs := collectiveRemote p s msg ++ fanOutOuts p env self s torusFanOutDelay msg }

/-- `event_handler`; `sv` is what the message held where values are saved. -/
def eventHandler (s : NodeState) (sv : Saved) : NodeEvent → Option Done
  | .packet (.generate msg) => generateFwd p env self s msg sv
  | .packet (.arrival msg) => if self = msg.destLp then arriveHereFwd p env s msg sv
      else arriveTransitFwd p env self s msg sv
  | .packet (.send dim dir) => some (sendFwd p env self s dim dir sv)
  | .packet (.credit dim dir) => some (creditFwd p env self s dim dir sv)
  | .collectiveInit msg => collectiveInitFwd p env self s msg sv
  | .collectiveFanIn msg => some (fanInFwd p env self s msg sv)
  | .collectiveFanOut msg => some (fanOutFwd p env self s msg sv)

/-! ### Reverse handlers -/

/-- Undo the start of the send loop of a queue. -/
def NodeState.unstart (s : NodeState) (started : Bool) (queue : ℕ) : NodeState :=
  if started then
    { s with latDraws := s.latDraws - 1, inSendLoop := update s.inSendLoop queue 0 }
  else s

/-- `packet_generate_rc`. -/
def packetGenerateRc (s : NodeState) (bf : Bf) (msg : Msg) : Option NodeState :=
  let queue := queueOf msg.sourceDim msg.sourceDirection
  let num := numChunks msg.packetSize p.chunkSize
  (returnTails num (s.terminalMsgs queue)).bind fun terminal =>
  (updateStats s.stats msg.category fun st => { st with
      sendCount := st.sendCount - 1
      sendBytes := st.sendBytes - msg.packetSize
      sendTime := st.sendTime - 1 / p.linkBandwidth * msg.packetSize }).map fun stats =>
    NodeState.unstart { s with
      packetCounter := s.packetCounter - 1
      terminalMsgs := update s.terminalMsgs queue terminal
      terminalLength := update s.terminalLength queue
        (s.terminalLength queue - num * p.chunkSize)
      allTermLength := s.allTermLength - num * p.chunkSize
      stats := stats } bf.c8 queue

/-- `packet_send_rc`. -/
def packetSendRc (s : NodeState) (bf : Bf) (sv : Saved) (dim dir : ℕ) : Option NodeState :=
  let queue := queueOf dim dir
  if bf.c1 || bf.c4 then
    some { s with
      lastBufFull := if bf.c24 then update s.lastBufFull queue sv.busyTime
        else s.lastBufFull
      inSendLoop := update s.inSendLoop queue 1 }
  else
    match s.st with
    | [] => none
    | c :: st =>
      let traffic : ℤ := (if bf.c20 then c.packetSize % p.chunkSize else 0 : ℕ) +
        (if bf.c21 then p.chunkSize else 0 : ℕ)
      some { s with
        buffer := if bf.c3 then update s.buffer queue (s.buffer queue - p.chunkSize)
          else s.buffer
        latDraws := s.latDraws - (1 + (if bf.c6 then 1 else 0) + if bf.c9 then 1 else 0)
        nextLinkAvailableTime :=
          update s.nextLinkAvailableTime queue sv.availableTime
        st := st
        linkTraffic := update s.linkTraffic queue (s.linkTraffic queue - traffic)
        terminalMsgs := if bf.c31 then
            update s.terminalMsgs queue (c :: s.terminalMsgs queue)
          else s.terminalMsgs
        terminalLength := if bf.c31 then
            update s.terminalLength queue (s.terminalLength queue + p.chunkSize)
          else s.terminalLength
        allTermLength := if bf.c31 then s.allTermLength + p.chunkSize else s.allTermLength
        pendingMsgs := if bf.c8 then
            update s.pendingMsgs queue (c :: s.pendingMsgs queue)
          else s.pendingMsgs
        inSendLoop := if bf.c10 then update s.inSendLoop queue 1 else s.inSendLoop }

/-- The part of `packet_arrive_rc` for a chunk that was delivered. -/
def arriveHereRc (s : NodeState) (bf : Bf) (sv : Saved) (msg : Msg) : Option NodeState :=
  let s := { s with rngDraws := s.rngDraws - 1, totalDataSz := s.totalDataSz - p.chunkSize }
  if bf.c2 then
    (updateStats s.stats msg.category fun st => { st with
        recvCount := st.recvCount - 1
        recvBytes := st.recvBytes - msg.packetSize
        recvTime := sv.recvTime }).map fun stats =>
      { s with
        stats := stats
        totalTime := sv.recvTime
        finishedPackets := s.finishedPackets - 1
        totalHops := s.totalHops - msg.myNHop
        latDraws := s.latDraws - if bf.c31 then sv.eventRc else 0 }
  else some s

/-- The part of `packet_arrive_rc` for a chunk on its way. -/
def arriveTransitRc (s : NodeState) (bf : Bf) (sv : Saved) : Option NodeState :=
  let queue := sv.sourceChannel
  let lastBufFull := if (bf.c30 || bf.c8) && bf.c24 then
    update s.lastBufFull queue sv.busyTime else s.lastBufFull
  let tails (b : Bool) (l : List Msg) : Option (List Msg) :=
    if b then returnTails 1 l else some l
  (tails bf.c30 (s.queuedMsgs queue)).bind fun queued =>
  (tails (bf.c9 || bf.c11) (s.pendingMsgs queue)).bind fun pending =>
  (tails bf.c8 (s.otherMsgs queue)).map fun other =>
    NodeState.unstart { s with
      queuedMsgs := update s.queuedMsgs queue queued
      queuedLength := if bf.c30 then
          update s.queuedLength queue (s.queuedLength queue - p.chunkSize)
        else s.queuedLength
      pendingMsgs := update s.pendingMsgs queue pending
      buffer := if bf.c9 || bf.c11 then
          update s.buffer queue (s.buffer queue - p.chunkSize)
        else s.buffer
      rngDraws := if bf.c9 || bf.c11 then s.rngDraws - 1 else s.rngDraws
      otherMsgs := update s.otherMsgs queue other
      lastBufFull := lastBufFull } bf.c13 queue

/-- `packet_arrive_rc`. -/
def packetArriveRc (s : NodeState) (bf : Bf) (sv : Saved) (msg : Msg) : Option NodeState :=
  let s := { s with latDraws := s.latDraws - 1, finishedChunks := s.finishedChunks - 1 }
  (if bf.c1 then arriveHereRc p s bf sv msg else some s).bind fun s =>
  if bf.c6 then arriveTransitRc p s bf sv else some s

/-- Undo `grant`: the last chunk of the pending list goes back to the head of a list. -/
def ungrant (s : NodeState) (queue : ℕ) : Option (Msg × NodeState) :=
  (s.pendingMsgs queue).getLast?.map fun c =>
    (c, { s with
      pendingMsgs := update s.pendingMsgs queue (s.pendingMsgs queue).dropLast
      rngDraws := s.rngDraws - 1
      buffer := update s.buffer queue (s.buffer queue - p.chunkSize) })

/-- `packet_buffer_process_rc`. -/
def packetBufferProcessRc (s : NodeState) (bf : Bf) (sv : Saved) (dim dir : ℕ) :
    Option NodeState :=
  let queue := queueOf dim dir
  let s := { s with buffer := update s.buffer queue (s.buffer queue + p.chunkSize) }
  let s := if bf.c24 then { s with
      busyTime := update s.busyTime queue sv.busyTime
      lastBufFull := update s.lastBufFull queue sv.recvTime }
    else s
  (if bf.c2 then (ungrant p s queue).map fun (c, s) => { s with
      queuedMsgs := update s.queuedMsgs queue (c :: s.queuedMsgs queue)
      queuedLength := update s.queuedLength queue (s.queuedLength queue + p.chunkSize) }
    else some s).bind fun s =>
  (if bf.c3 then (ungrant p s queue).map fun (c, s) => { s with
      otherMsgs := update s.otherMsgs queue (c :: s.otherMsgs queue) }
    else some s).map fun s => s.unstart bf.c5 queue

/-- `node_rc_handler`. -/
def nodeRcHandler (d : Done) : Option NodeState :=
  let s := d.state
  match d.event with
  | .packet (.generate msg) => packetGenerateRc p s d.bf msg
  | .packet (.arrival msg) => packetArriveRc p s d.bf d.saved msg
  | .packet (.send dim dir) => packetSendRc p s d.bf d.saved dim dir
  | .packet (.credit dim dir) => packetBufferProcessRc p s d.bf d.saved dim dir
  | .collectiveInit _ => some { s with collectiveInitTime := d.saved.collectiveInitTime }
  | .collectiveFanIn _ =>
    some { s with
      numFanNodes := if d.bf.c1 || d.bf.c2 then d.saved.fanNodes else s.numFanNodes - 1
      rngDraws := if d.bf.c2 then s.rngDraws - (myChildren p self).length else s.rngDraws }
  | .collectiveFanOut _ =>
    some { s with
      rngDraws := if d.bf.c1 then s.rngDraws - (myChildren p self).length else s.rngDraws }

/-! ### The network -/

/-- The events for nodes among those sent. -/
def NodeOut.toNode : NodeOut → Option (ℕ × NodeEvent)
  | .packet out => out.toNode.map fun x => (x.1, .packet x.2)
  | .collective dest _ e => some (dest, e)

abbrev FullNet := Net (fun _ : ℕ => NodeState) NodeEvent

abbrev FullLabel := NetLabel ℕ NodeEvent (FullEnv × Saved)

/-- The nodes of a torus with all their events. -/
def fullSystem : LpSystem (fun _ : ℕ => NodeState) NodeEvent (FullEnv × Saved) where
  handle ω n s e := (eventHandler p ω.1 n s ω.2 e).map fun d =>
    (d.state, d.outs.filterMap NodeOut.toNode)

def initFull : FullNet := ⟨fun _ => NodeState.init, []⟩

/-- From outside come packets and the starts of collective operations. -/
def FullFromOutside : FullLabel → Prop
  | .inject d (.packet (.generate msg)) _ => d < numNodes p.dimLength ∧
      msg.destLp < numNodes p.dimLength
  | .inject d (.collectiveInit _) _ => d < numNodes p.dimLength
  | .inject _ _ _ => False
  | .deliver _ _ => True

end CodesSim.Torus
