import CodesSim.Base.Stats
import CodesSim.Dally.Basic

/-!
# The dragonfly terminal

The forward handlers of a terminal: `packetGenerate` cuts a packet into chunks and queues them on a
rail, `packetSend` puts a chunk on the link to the router, `terminalBufUpdate` takes a credit back,
`packetArrive` takes a chunk that has reached its destination and puts packets and messages
together, and `issueBwMonitorEvent` starts a new bandwidth window.

The arrays over the rails of `terminal_state` are the fields of `Rail`; arrays over the QoS levels
are functions.
-/

namespace CodesSim.Dally

open Function

/-! ### State -/

/-- What a terminal has for each rail. -/
structure Rail where
  /-- Bytes of each level on their way to the router or waiting there for a VC. -/
  vcOccupancy : ℕ → ℤ
  terminalLength : ℕ → ℤ
  terminalMsgs : ℕ → List Msg
  qosStatus : ℕ → QosStatus
  qosData : ℕ → ℤ
  (lastQosLvl inSendLoop issueIdle : ℕ)
  (terminalAvailableTime lastBufFull busyTime busyTimeSample busyTimeRossSample : STime)
  (linkTraffic totalChunks stalledChunks stalledChunksRossSample : ℤ)

/-- A message on its way in (`dfly_hash_key`). -/
structure RankKey where
  messageId : ℕ
  senderId : Lpid
  deriving DecidableEq

/-- What has arrived of a message (`dfly_qhash_entry`); no payload is stored while
`remoteEventData` is empty. -/
structure HashEntry where
  key : RankKey
  numChunks : ℤ
  remainingPackets : ℤ
  remoteEventData : List UInt8

/-- A packet (`packet_id`). -/
structure PacketKey where
  packetId : ℕ
  dfdallySrcTerminalId : ℕ
  deriving DecidableEq

/-- The counters of a terminal. -/
structure TermStats where
  (packetGen packetFin totalGenSize : ℤ)
  totalTime : STime
  (totalMsgSize totalHops finishedMsgs finishedChunks finishedPackets injectedChunks : ℤ)
  (ejectedChunks : ℤ)
  maxLatency : STime
  minLatency : STime
  (finChunksSample dataSizeSample finHopsSample : ℤ)
  finChunksTime : STime
  (finChunksRossSample dataSizeRossSample finHopsRossSample : ℤ)
  finChunksTimeRossSample : STime
  (packetsGenRossSample packetsFinRossSample minFinRossSample nonminFinRossSample : ℤ)
  deriving DecidableEq, Inhabited

/-- An entry of the stack for reverse computation. -/
inductive RcEntry where
  | chunk (msg : Msg)
  | lastBufFull (times : List STime)
  | issueIdle (flags : List ℕ)
  | message (entry : HashEntry)

/-- A terminal (`terminal_state`). -/
structure Terminal where
  rails : ℕ → Rail
  packetCounter : ℕ
  isMonitoringBw : Bool
  lastInQueueTime : STime
  rankTbl : RankKey → Option HashEntry
  rankTblPop : ℕ
  remainingSzPackets : PacketKey → Option ℕ
  zombies : PacketKey → Bool
  stats : TermStats
  dragonflyStatsArray : StatsArray
  st : List RcEntry
  /-- Position of the random number generator of the LP. -/
  rng : ℕ

namespace Terminal

def setRail (s : Terminal) (rail : ℕ) (r : Rail) : Terminal :=
  { s with rails := update s.rails rail r }

@[simp] theorem setRail_rails_self (s : Terminal) (rail : ℕ) (r : Rail) :
    (s.setRail rail r).rails rail = r := update_self ..

theorem setRail_rails_of_ne (s : Terminal) {rail k : ℕ} (r : Rail) (h : k ≠ rail) :
    (s.setRail rail r).rails k = s.rails k := update_of_ne h ..

end Terminal

/-- `INT_MAX`. -/
def intMax : ℤ := 2 ^ 31 - 1

/-- A rail after `terminal_dally_init`. -/
def Rail.init : Rail where
  vcOccupancy _ := 0
  terminalLength _ := 0
  terminalMsgs _ := []
  qosStatus _ := .active
  qosData _ := 0
  lastQosLvl := 0
  inSendLoop := 0
  issueIdle := 0
  terminalAvailableTime := 0
  lastBufFull := 0
  busyTime := 0
  busyTimeSample := 0
  busyTimeRossSample := 0
  linkTraffic := 0
  totalChunks := 0
  stalledChunks := 0
  stalledChunksRossSample := 0

/-- A terminal after `terminal_dally_init`. -/
def Terminal.init : Terminal where
  rails _ := Rail.init
  packetCounter := 0
  isMonitoringBw := false
  lastInQueueTime := 0
  rankTbl _ := none
  rankTblPop := 0
  remainingSzPackets _ := none
  zombies _ := false
  stats := { (default : TermStats) with minLatency := intMax }
  dragonflyStatsArray := .init
  st := []
  rng := 0

/-! ### Injection -/

/-- The loop over the candidate rails that keeps the best ones: the smallest value so far, the
target and the rails tied with it, and whether there is a tie.  `value` gives the value of a
candidate and `tieValue` the one it is compared with for a tie. -/
def bestRails (value tieValue : ℕ → Connection → ℤ) :
    ℕ → List Connection → ℤ → Connection × List Connection × Bool →
      Connection × List Connection × Bool
  | _, [], _, best => best
  | i, c :: cs, minValue, best =>
    if value i c < minValue then bestRails value tieValue (i + 1) cs (value i c) (c, [c], false)
    else if tieValue i c = minValue then
      bestRails value tieValue (i + 1) cs minValue (best.1, best.2.1 ++ [c], true)
    else bestRails value tieValue (i + 1) cs minValue best

/-- Break a tie by a draw.  The second component counts the draws. -/
def breakTie (env : Env) (rng : ℕ) (best : Connection × List Connection × Bool) :
    Connection × ℕ :=
  if best.2.2 then (best.2.1.getD (env.randInteger rng best.2.1.length) best.1, 1)
  else (best.1, 0)

/-- The rails that `packet_generate` may select for a packet to terminal `dest`. -/
def validRails (p : Param) (t : Topology p) (self dest : ℕ) : List Connection :=
  let injection := (t.injection self).filter fun c => !c.isFailed
  if t.linkFailures then
    injection.filter fun c =>
      t.hasValidPath (p.assignedRouterId self c.railOrPlanarId)
        (p.assignedRouterId dest c.railOrPlanarId)
  else injection

/-- Distances on the rails: `path_lens` as far as the loop of `packet_generate` has filled it. -/
def pathLens (p : Param) (t : Topology p) (self dest : ℕ) (rails : List Connection) : List ℤ :=
  rails.map fun c => t.shortestDist (p.assignedRouterId self c.railOrPlanarId)
    (p.assignedRouterId dest c.railOrPlanarId)

/-- Selection by path length.  For a tie the code reads `path_lens[rail_id]`, which at index `i` of
the loop is set only up to `i`. -/
def railByPath (p : Param) (t : Topology p) (env : Env) (self dest : ℕ) (rng : ℕ)
    (rails : List Connection) (first : Connection) : Connection × ℕ :=
  let lens := pathLens p t self dest rails
  breakTie env rng <| bestRails (fun i _ => lens.getD i 0)
    (fun i c => if c.railOrPlanarId ≤ i then lens.getD c.railOrPlanarId 0
      else env.stack c.railOrPlanarId) 0 rails 99999 (first, [], false)

/-- Selection by occupancy. -/
def railByCongestion (p : Param) (env : Env) (s : Terminal) (rng : ℕ) (rails : List Connection)
    (first : Connection) : Connection × ℕ :=
  let sum (_ : ℕ) (c : Connection) : ℤ :=
    ((List.range p.numQosLevels).map (s.rails c.port).vcOccupancy).sum
  breakTie env rng <| bestRails sum sum 0 rails intMax (first, [], false)

/-- The connection that an empty entry of `_portMap` stands for. -/
def zeroConnection : Connection := ⟨0, 0, 0, 0, false, 0, .connLocal⟩

/-- The rail selection of `packet_generate`: the rail and the number of draws made. -/
def selectRail (p : Param) (t : Topology p) (env : Env) (self : ℕ) (s : Terminal) (msg : Msg) :
    Option (ℕ × ℕ) :=
  match validRails p t self msg.dfdallyDestTerminalId with
  | [] => none
  | [c] => some (c.railOrPlanarId, 0)
  | first :: rest =>
    let rails := first :: rest
    let (target, draws) :=
      match p.railSelect with
      | .dedicated =>
        let specific := ((t.injection self).find? fun c : Connection => c.port = msg.railId).getD
          zeroConnection
        if specific.isFailed then railByCongestion p env s s.rng rails first else (specific, 0)
      | .path => railByPath p t env self msg.dfdallyDestTerminalId s.rng rails first
      | .rand => (rails.getD (env.randInteger s.rng rails.length) first, 1)
      | .congestion => railByCongestion p env s s.rng rails first
    some (target.railOrPlanarId, draws)

/-- Whether `packet_generate` selects a rail; otherwise the packet stays on the one it names. -/
def selectsRail (p : Param) (t : Topology p) : Bool := p.numInjectionQueues > 1 || t.linkFailures

/-- The fields of a chunk of a packet as `packet_generate` queues it. -/
def chunkOf (msg : Msg) (vcg i : ℕ) : Msg := { msg with outputChan := vcg, chunkId := i }

/-- Queue chunks on a level. -/
def Rail.enqueue (p : Param) (r : Rail) (vcg : ℕ) (chunks : List Msg) : Rail :=
  { r with
    terminalMsgs := update r.terminalMsgs vcg (r.terminalMsgs vcg ++ chunks)
    terminalLength :=
      update r.terminalLength vcg (r.terminalLength vcg + chunks.length * p.chunkSize) }

/-- No packet is asked for until the queue of the rail has room. -/
def Rail.holdIdle (now : STime) (r : Rail) : Rail :=
  { r with issueIdle := 1, lastBufFull := if r.lastBufFull = 0 then now else r.lastBufFull }

/-- With several injection queues `packet_generate` asks each of them for a packet, or holds. -/
def issueIdles (p : Param) (now nicTs : STime) (vcg : ℕ) :
    List ℕ → (ℕ → Rail) × List Out → (ℕ → Rail) × List Out
  | [], x => x
  | j :: js, (rails, outs) =>
    let r := rails j
    issueIdles p now nicTs vcg js <|
      if r.terminalLength vcg < p.cnVcSize ∧ r.issueIdle = 0 then (rails, outs ++ [.idle nicTs j])
      else (update rails j (r.holdIdle now), outs)

/-- The message that keeps the send loop of a rail going. -/
def tSendMsg (env : Env) (rail : ℕ) : Msg := { env.blank with type := .tSend, railId := rail }

def tSendEvent (env : Env) (self rail : ℕ) (delay : STime) : Out :=
  .event (.terminal self) delay (tSendMsg env rail)

/-- The event that starts the next bandwidth window of a terminal. -/
def tBandwidthEvent (env : Env) (self : ℕ) : Out :=
  .event (.terminal self) bwResetWindow { env.blank with type := .tBandwidth }

/-- The message of a packet after `packet_generate` has chosen the rail and numbered the packet. -/
def generatedMsg (p : Param) (env : Env) (self : ℕ) (s : Terminal) (msg : Msg) (rail draws : ℕ) :
    Msg :=
  { msg with
    railId := rail
    numRngs := msg.numRngs + draws
    packetId := s.packetCounter
    myNHop := 0
    myLHop := 0
    myGHop := 0
    myHopsCurGroup := 0
    originRouterId := p.assignedRouterId self rail
    saved := { msg.saved with
      processingTime := env.now
      nextPacketDelay := env.now - s.lastInQueueTime
      lastInQueueTime := s.lastInQueueTime } }

/-- The last part of `packet_generate`: ask for the next packet.  Returns the rails, the stack, the
bits `c8` and `c11`, the message and the events. -/
def askNext (p : Param) (env : Env) (rails : ℕ → Rail) (st : List RcEntry) (msg : Msg) (vcg : ℕ) :
    (ℕ → Rail) × List RcEntry × Bf × Msg × List Out :=
  let nicTs := bytesToNs msg.packetSize p.cnBandwidth
  if p.numInjectionQueues > 1 then
    let queues := List.range p.numInjectionQueues
    let x := issueIdles p env.now nicTs vcg queues (rails, [])
    (x.1, .issueIdle (queues.map fun j => (rails j).issueIdle) ::
      .lastBufFull (queues.map fun j => (rails j).lastBufFull) :: st, {}, msg, x.2)
  else
    let r := rails msg.railId
    if r.terminalLength vcg < p.cnVcSize then (rails, st, {}, msg, [.idle nicTs msg.railId])
    else
      let msg' := if r.lastBufFull = 0 then
        { msg with saved := { msg.saved with busyTime := r.lastBufFull } } else msg
      (update rails msg.railId (r.holdIdle env.now), st,
        { c11 := true, c8 := r.lastBufFull = 0 }, msg', [])

/-- The chunks of a packet. -/
def chunksOf (p : Param) (msg : Msg) (vcg : ℕ) : List Msg :=
  (List.range (numChunksFor msg.packetSize p.chunkSize)).map (chunkOf msg vcg)

/-- The rails with the loop of one of them running. -/
def startLoop (rails : ℕ → Rail) (rail : ℕ) : ℕ → Rail :=
  if (rails rail).inSendLoop = 0 then
    update rails rail { rails rail with inSendLoop := 1 }
  else rails

/-- `packet_generate` once the rail and the level of the packet are known; `msg` is the message
with its number and `draws` counts the random numbers drawn for the rail. -/
def generateOn (p : Param) (t : Topology p) (env : Env) (self : ℕ) (s : Terminal) (msg : Msg)
    (draws vcg : ℕ) : Result Terminal :=
  let rail := msg.railId
  let srcRouter := p.assignedRouterId self rail
  let destRouter := p.assignedRouterId msg.dfdallyDestTerminalId
    (if selectsRail p t then rail else 0)
  let monitor := p.numQosLevels > 1 ∧ ¬ s.isMonitoringBw
  let rails1 := update s.rails rail
    ((s.rails rail).enqueue p vcg (chunksOf p msg vcg))
  let asked := askNext p env rails1 s.st msg vcg
  let start := (asked.1 rail).inSendLoop = 0
  { state := { s with
      rails := startLoop asked.1 rail
      packetCounter := s.packetCounter + 1
      isMonitoringBw := s.isMonitoringBw || monitor
      lastInQueueTime := env.now
      st := asked.2.1
      rng := s.rng + draws
      stats := { s.stats with
        packetGen := s.stats.packetGen + 1
        packetsGenRossSample := s.stats.packetsGenRossSample + 1
        totalGenSize := s.stats.totalGenSize + msg.packetSize } }
    bf := { asked.2.2.1 with
      c1 := monitor
      c2 := p.groupId srcRouter = p.groupId destRouter ∧ destRouter = srcRouter
      c3 := p.groupId srcRouter = p.groupId destRouter ∧ destRouter ≠ srcRouter
      c4 := p.groupId srcRouter ≠ p.groupId destRouter
      c5 := start }
    msg := asked.2.2.2.1
    outs := (if monitor then [tBandwidthEvent env self] else []) ++ asked.2.2.2.2 ++
      (if start then [tSendEvent env self rail 0] else []) }

/-- The counters of a category after a packet has been generated. -/
def MnStats.generated (p : Param) (msg : Msg) (st : MnStats) : MnStats :=
  let totalEventSize : ℤ := p.msgSz + msg.remoteEvent.length + msg.localEvent.length
  { st with
    sendCount := st.sendCount + 1
    sendBytes := st.sendBytes + msg.packetSize
    sendTime := st.sendTime + 1 / p.cnBandwidth * msg.packetSize
    maxEventSize :=
      if st.maxEventSize < totalEventSize then totalEventSize else st.maxEventSize }

/-- `packet_generate`: a packet from the scheduler is cut into chunks. -/
def packetGenerate (p : Param) (t : Topology p) (env : Env) (self : ℕ) (s : Terminal) (msg : Msg) :
    Option (Result Terminal) :=
  if msg.destTerminalLpid = .terminal self then none else
  let choice := if selectsRail p t then selectRail p t env self s msg else some (msg.railId, 0)
  choice.bind fun x =>
  (p.vcg msg).bind fun vcg =>
  if vcg < p.numQosLevels then
    let res := generateOn p t env self s (generatedMsg p env self s msg x.1 x.2) x.2 vcg
    (updateStats s.dragonflyStatsArray msg.category (MnStats.generated p msg)).map fun stats =>
      { res with state := { res.state with dragonflyStatsArray := stats } }
  else none

/-! ### Sending -/

/-- Level `i` of a rail has a chunk and room for it. -/
def Rail.sendable (p : Param) (r : Rail) (i : ℕ) : Bool :=
  !(r.terminalMsgs i).isEmpty && r.vcOccupancy i + p.chunkSize ≤ p.cnVcSize

/-- `get_term_bandwidth_consumption`; `none` is a failed assertion. -/
def getTermBandwidthConsumption (p : Param) (r : Rail) (k : ℕ) : Option ℤ :=
  if k ≤ qLow then some (percentBw (r.qosData k) p.cnBandwidth) else none

/-- Mark a level that has used up its share in this window. -/
def Rail.checkBw (p : Param) (x : Rail × Saved) (k : ℕ) : Option (Rail × Saved) :=
  if x.1.qosStatus k ≠ .overBw then
    (getTermBandwidthConsumption p x.1 k).map fun consumption =>
      if consumption > p.qosBandwidths k then
        ({ x.1 with qosStatus := update x.1.qosStatus k .overBw },
          { x.2 with
            qosReset1 := if k = 0 then 1 else x.2.qosReset1
            qosReset2 := if k = 1 then 1 else x.2.qosReset2 })
      else x
  else some x

/-- The level that `get_next_vcg` takes when the statuses are up to date, the bit `c2`, and the rail
and the saved fields it has changed. -/
def chooseVcg (p : Param) (x : Rail × Saved) : Option ℕ × Bool × Rail × Saved :=
  let levels := List.range p.numQosLevels
  match levels.find? fun i => x.1.qosStatus i = .active && x.1.sendable p i with
  | some i => (some i, false, x.1, x.2)
  | none =>
    match levels.find? fun i => x.1.sendable p i with
    | some i => (some i, true,
        { x.1 with lastQosLvl := (x.1.lastQosLvl + 1 + i) % p.numQosLevels },
        { x.2 with
          lastSavedQos := if x.2.lastSavedQos < 0 then x.1.lastQosLvl else x.2.lastSavedQos })
    | none => (none, false, x.1, x.2)

/-- `get_next_vcg`; `none` is a failed assertion. -/
def getNextVcg (p : Param) (r : Rail) (sv : Saved) : Option (Option ℕ × Bool × Rail × Saved) :=
  if p.numQosLevels = 1 then some (if r.sendable p 0 then some 0 else none, false, r, sv)
  else ((List.range p.numQosLevels).foldlM (Rail.checkBw p) (r, sv)).map (chooseVcg p)

/-- A chunk as it is put on the link to the router. -/
def injectedMsg (env : Env) (self rail vcg : ℕ) (cur : Msg) : Msg :=
  { cur with
    type := .rArrive
    travelStartTime := env.now
    srcTerminalId := .terminal self
    dfdallySrcTerminalId := self
    railId := rail
    vcIndex := vcg
    lastHop := .terminalHop
    pathType := .unset
    localEvent := []
    isIntmVisited := false
    intmGrpId := none }

/-- The bytes of a chunk that count: less than a chunk only for a small packet. -/
def dataSize (p : Param) (cur : Msg) : ℕ :=
  if cur.packetSize < p.chunkSize ∧ cur.chunkId + 1 = numChunksFor cur.packetSize p.chunkSize then
    cur.packetSize % p.chunkSize
  else p.chunkSize

/-- The rail after a chunk of level `vcg` has been sent; `rest` are the chunks behind it. -/
def Rail.sent (p : Param) (env : Env) (r : Rail) (vcg : ℕ) (cur : Msg) (rest : List Msg) : Rail :=
  { r with
    vcOccupancy := update r.vcOccupancy vcg (r.vcOccupancy vcg + p.chunkSize)
    terminalLength := update r.terminalLength vcg (r.terminalLength vcg - p.chunkSize)
    terminalMsgs := update r.terminalMsgs vcg rest
    qosData := update r.qosData vcg (r.qosData vcg + dataSize p cur)
    terminalAvailableTime :=
      max r.terminalAvailableTime env.now + bytesToNs (dataSize p cur) p.cnBandwidth
    linkTraffic := r.linkTraffic + p.chunkSize
    totalChunks := r.totalChunks + 1 }

/-- Whether the loop goes on after a chunk, with the level that is next: with one level it is level
0, otherwise `get_next_vcg` is asked again. -/
def nextVcg (p : Param) (r : Rail) (sv : Saved) : Option (Option ℕ × Bool × Rail × Saved) :=
  if p.numQosLevels > 1 then getNextVcg p r sv else some (some 0, false, r, sv)

/-- The idle event that was held back is issued when the queue has room again. -/
def Rail.issueHeld (env : Env) (r : Rail) (sv : Saved) : Rail × Saved :=
  if r.lastBufFull > 0 then
    let stalled := env.now - r.lastBufFull
    ({ r with
        issueIdle := 0
        busyTime := r.busyTime + stalled
        busyTimeSample := r.busyTimeSample + stalled
        busyTimeRossSample := r.busyTimeRossSample + stalled
        lastBufFull := 0 },
      { sv with
        totalTime := r.busyTime
        busyTime := r.lastBufFull
        sampleTime := r.busyTimeSample
        busyTimeRoss := r.busyTimeRossSample })
  else ({ r with issueIdle := 0 }, sv)

/-- `packet_send` when there is nothing to send: the loop ends. -/
def packetSendNone (env : Env) (s : Terminal) (msg : Msg) (r : Rail) (sv : Saved) :
    Result Terminal where
  state := s.setRail msg.railId { r with
    inSendLoop := 0
    stalledChunks := r.stalledChunks + 1
    stalledChunksRossSample := r.stalledChunksRossSample + 1
    lastBufFull := if r.lastBufFull = 0 then env.now else r.lastBufFull }
  bf := { c1 := true, c3 := r.lastBufFull = 0 }
  msg := { msg with saved :=
    if r.lastBufFull = 0 then { sv with busyTime := r.lastBufFull } else sv }
  outs := []

/-- The rail after a chunk, with the loop ended if it does not go on. -/
def Rail.goOn (r : Rail) (more : Bool) : Rail := if more then r else { r with inSendLoop := 0 }

/-- `packet_send` of the chunk `cur` of level `vcg`; `c2` is the bit of `get_next_vcg`. -/
def packetSendChunk (p : Param) (env : Env) (self : ℕ) (s : Terminal) (msg : Msg) (vcg : ℕ)
    (c2 : Bool) (r : Rail) (sv : Saved) (cur : Msg) (rest : List Msg) : Option (Result Terminal) :=
  let rail := msg.railId
  let sv1 := { sv with avgTime := cur.travelStartTime, availableTime := r.terminalAvailableTime }
  let r1 := r.sent p env vcg cur rest
  let injectionTs := r1.terminalAvailableTime - env.now
  let lastChunk := cur.chunkId + 1 = numChunksFor cur.packetSize p.chunkSize ∧ cur.localEvent ≠ []
  (nextVcg p r1 sv1).map fun (next : Option ℕ × Bool × Rail × Saved) =>
  let more := next.1.any (next.2.2.1.sendable p)
  let r3 := next.2.2.1.goOn more
  let held := r3.issueIdle ≠ 0 ∧ r3.terminalLength vcg < p.cnVcSize
  let last := if held then r3.issueHeld env next.2.2.2 else (r3, next.2.2.2)
  { state := { s.setRail rail last.1 with
      st := .chunk { cur with travelStartTime := env.now } :: s.st
      stats := { s.stats with injectedChunks := s.stats.injectedChunks + 1 } }
    bf := {
      c2 := c2 || next.2.1
      c4 := !more
      c5 := held
      c6 := held ∧ r3.lastBufFull > 0
      c16 := lastChunk }
    msg := { msg with
      savedVc := vcg
      packetId := if lastChunk then cur.packetId else msg.packetId
      saved := last.2 }
    outs := .event (.router (p.assignedRouterId self rail)) (injectionTs + p.cnDelay)
        (injectedMsg env self rail vcg cur) ::
      (if lastChunk then [.server cur.senderLp 0 cur.localEvent] else []) ++
      (if more then [tSendEvent env self rail injectionTs] else []) ++
      (if held then [.idle injectionTs rail] else []) }

/-- `packet_send`: one chunk of a rail is put on the link, if there is one and the VC has room;
`none` is a failed assertion. -/
def packetSend (p : Param) (env : Env) (self : ℕ) (s : Terminal) (msg : Msg) :
    Option (Result Terminal) :=
  let r := s.rails msg.railId
  let sv := { msg.saved with
    lastSavedQos := -1, qosReset1 := -1, qosReset2 := -1, sendLoop := r.inSendLoop }
  (getNextVcg p r sv).bind fun
  | (none, _, r', sv') => some (packetSendNone env s msg r' sv')
  | (some vcg, c2, r', sv') =>
    match r'.terminalMsgs vcg with
    | [] => none
    | cur :: rest => packetSendChunk p env self s msg vcg c2 r' sv' cur rest

/-- `terminal_buf_update`: a credit has come back. -/
def terminalBufUpdate (p : Param) (env : Env) (self : ℕ) (s : Terminal) (msg : Msg) :
    Option (Result Terminal) :=
  (p.vcg msg).map fun vcg =>
  let r := s.rails msg.railId
  let start := r.inSendLoop = 0 ∧ r.terminalMsgs vcg ≠ []
  { state := s.setRail msg.railId { r with
      vcOccupancy := update r.vcOccupancy vcg (r.vcOccupancy vcg - p.chunkSize)
      inSendLoop := if start then 1 else r.inSendLoop }
    bf := { c1 := start }
    msg := msg
    outs := if start then [tSendEvent env self msg.railId 0] else [] }

/-! ### Arrival -/

/-- The counters for an arrived chunk. -/
def TermStats.chunkArrived (st : TermStats) (msg : Msg) (latency : STime) (lastChunk : Bool) :
    TermStats :=
  { st with
    finishedChunks := st.finishedChunks + 1
    finChunksSample := st.finChunksSample + 1
    finChunksRossSample := st.finChunksRossSample + 1
    ejectedChunks := st.ejectedChunks + 1
    minFinRossSample := if msg.pathType = .minimal then st.minFinRossSample + 1
      else st.minFinRossSample
    nonminFinRossSample := if msg.pathType = .nonMinimal then st.nonminFinRossSample + 1
      else st.nonminFinRossSample
    finChunksTime := st.finChunksTime + latency
    finChunksTimeRossSample := st.finChunksTimeRossSample + latency
    totalTime := st.totalTime + latency
    totalHops := st.totalHops + msg.myNHop
    finHopsSample := st.finHopsSample + msg.myNHop
    finHopsRossSample := st.finHopsRossSample + msg.myNHop
    packetFin := if lastChunk then st.packetFin + 1 else st.packetFin
    packetsFinRossSample := if lastChunk then st.packetsFinRossSample + 1
      else st.packetsFinRossSample
    finishedPackets := if lastChunk then st.finishedPackets + 1 else st.finishedPackets
    minLatency := if st.minLatency > latency then latency else st.minLatency
    maxLatency := if st.maxLatency < latency then latency else st.maxLatency }

/-- The counters for a message that is complete. -/
def TermStats.messageFinished (st : TermStats) (msg : Msg) : TermStats :=
  { st with
    dataSizeSample := st.dataSizeSample + msg.totalSize
    dataSizeRossSample := st.dataSizeRossSample + msg.totalSize
    totalMsgSize := st.totalMsgSize + msg.totalSize
    finishedMsgs := st.finishedMsgs + 1 }

def Msg.packetKey (msg : Msg) : PacketKey := ⟨msg.packetId, msg.dfdallySrcTerminalId⟩

def Msg.rankKey (msg : Msg) : RankKey := ⟨msg.messageId, msg.senderLp⟩

/-- The credit for a chunk that has reached its terminal. -/
def arrivalCreditMsg (env : Env) (msg : Msg) : Msg :=
  { env.blank with
    type := .rBuffer
    railId := msg.railId
    vcIndex := msg.vcIndex
    outputChan := msg.outputChan }

def arrivalCredit (p : Param) (env : Env) (msg : Msg) : Out :=
  .event msg.intmLpId p.cnCreditDelay (arrivalCreditMsg env msg)

/-- What is missing of the packet of a chunk afterwards (`remaining_sz_packets`), and whether the
packet is complete.  The size is unsigned and read as an `int`; from `2 ^ 31` on that is negative,
and taking it off leaves nothing.  So the assertion on the size of the chunk cannot fail. -/
def remainingAfter (p : Param) (remaining : Option ℕ) (msg : Msg) : Option ℕ × Bool :=
  match remaining with
  | some n =>
    let actualChunkSize : ℤ := min p.chunkSize (CodesMapping.wrapInt n)
    let rest := ((n - actualChunkSize) % 2 ^ 32).toNat
    if rest = 0 then (none, true) else (some rest, false)
  | none =>
    if p.chunkSize < msg.packetSize then (some (msg.packetSize - p.chunkSize), false)
    else (none, true)

/-- The table entry with which a message starts. -/
def newEntry (p : Param) (msg : Msg) : HashEntry where
  key := msg.rankKey
  numChunks := 0
  remainingPackets :=
    let total := msg.totalSize / p.packetSize + if msg.totalSize % p.packetSize = 0 then 0 else 1
    if total = 0 then 1 else total
  remoteEventData := []

/-- The table entry after a chunk; `complete` if the chunk was the last of its packet. -/
def HashEntry.chunkArrived (entry : HashEntry) (msg : Msg) (complete : Bool) : HashEntry :=
  { entry with
    numChunks := entry.numChunks + 1
    remoteEventData := if entry.remoteEventData = [] then msg.remoteEvent
      else entry.remoteEventData
    remainingPackets := if complete then entry.remainingPackets - 1 else entry.remainingPackets }

/-- `n` bytes from where the payload of a message begins. -/
def Msg.edata (env : Env) (msg : Msg) (n : ℕ) : List UInt8 :=
  (List.range n).map fun i => msg.remoteEvent.getD i (env.behind i)

/-- `send_remote_event`: the payload goes to the destination of the message, or the reply to a pull
is started.  For the reply the code takes the payload of the chunk that has just arrived. -/
def sendRemoteEvent (env : Env) (msg : Msg) (data : List UInt8) : Out :=
  if msg.isPull then
    .pull msg.senderMnLp msg.senderLp msg.pullSize 0 (msg.edata env data.length)
  else .server msg.finalDestGid 0 data

/-- The note to the source of a packet (`notify_src_lp_on_total_latency`). -/
def latencyNote (msg : Msg) : Out := .event msg.srcTerminalId 0 { msg with type := .tNotify }

/-- `DFLY_HASH_TABLE_SIZE`. -/
def hashTableSize : ℕ := 4999

/-- The part of `packet_arrive` about the message of a chunk, after the part about its packet.
`none` is a failed assertion, a full table or an overflow of the `int` that counts the chunks. -/
def messageArrive (p : Param) (env : Env) (s : Terminal) (msg : Msg) (bf : Bf)
    (complete : Bool) (outs : List Out) : Option (Result Terminal) :=
  let found := s.rankTbl msg.rankKey
  if found = none ∧ (p.packetSize = 0 ∨ s.rankTblPop + 1 ≥ hashTableSize) then none else
  let entry := (found.getD (newEntry p msg)).chunkArrived msg complete
  let pop := if found = none then s.rankTblPop + 1 else s.rankTblPop
  let notes := if complete ∧ p.notifyLatency then [latencyNote msg] else []
  let bf1 := { bf with c5 := found = none, c13 := complete }
  if ¬ entry.numChunks < 2 ^ 31 then none
  else if entry.remainingPackets ≠ 0 then
    some ⟨{ s with
        rankTbl := update s.rankTbl msg.rankKey (some entry)
        rankTblPop := pop }, bf1, msg, outs ++ notes⟩
  else if ¬ entry.numChunks ≤ numChunksFor msg.totalSize p.chunkSize then none
  else
    let events := if entry.remoteEventData = [] then []
      else [sendRemoteEvent env msg entry.remoteEventData]
    some ⟨{ s with
        rankTbl := update s.rankTbl msg.rankKey none
        rankTblPop := pop - 1
        st := .message entry :: s.st
        stats := s.stats.messageFinished msg },
      { bf1 with c7 := true, c4 := msg.isPull && entry.remoteEventData ≠ [] }, msg,
      outs ++ notes ++ events⟩

/-- The counters of a category after a chunk has arrived. -/
def MnStats.arrived (msg : Msg) (latency : STime) (lastChunk : Bool) (st : MnStats) : MnStats :=
  { st with
    recvTime := st.recvTime + latency
    recvCount := if lastChunk then st.recvCount + 1 else st.recvCount
    recvBytes := if lastChunk then st.recvBytes + msg.packetSize else st.recvBytes }

/-- `packet_arrive`: a chunk has reached its terminal; `none` is an error or a failed assertion, as
when the categories are all taken. -/
def packetArrive (p : Param) (env : Env) (self : ℕ) (s : Terminal) (msg : Msg) :
    Option (Result Terminal) :=
  if msg.dfdallyDestTerminalId ≠ self ∨ msg.destTerminalLpid ≠ .terminal self ∨
      msg.srcTerminalId = .terminal self then none else
  let lastChunk := msg.chunkId + 1 = numChunksFor msg.packetSize p.chunkSize
  let latency := env.now - msg.travelStartTime
  let newMin := s.stats.minLatency > latency
  let newMax := s.stats.maxLatency < latency
  (findStats s.dragonflyStatsArray msg.category).bind fun i =>
  (updateStats s.dragonflyStatsArray msg.category (MnStats.arrived msg latency lastChunk)).bind
    fun stats =>
  let msg1 := { msg with
    travelEndTime := env.now
    saved := { msg.saved with
      sampleTime := s.stats.finChunksTime
      finChunksRoss := s.stats.finChunksTimeRossSample
      avgTime := s.stats.totalTime
      rcvTime := (s.dragonflyStatsArray i).recvTime
      minLat := if newMin then s.stats.minLatency else msg.saved.minLat
      availableTime := if newMax then s.stats.maxLatency else msg.saved.availableTime } }
  let key := msg.packetKey
  let (remaining, complete) := remainingAfter p (s.remainingSzPackets key) msg
  let s1 := { s with
    stats := s.stats.chunkArrived msg latency lastChunk
    dragonflyStatsArray := stats
    remainingSzPackets := update s.remainingSzPackets key remaining }
  let c28 := (s.remainingSzPackets key).isSome
  let bf : Bf := {
    c1 := lastChunk
    c21 := newMin
    c22 := newMax
    c28 := c28
    c29 := if c28 then complete else !complete }
  if s.zombies key then
    some ⟨if complete then { s1 with zombies := update s.zombies key false } else s1,
      { bf with c14 := complete, c15 := true }, msg1, [arrivalCredit p env msg]⟩
  else messageArrive p env s1 msg1 bf complete [arrivalCredit p env msg]

/-! ### Bandwidth windows -/

/-- Start a new window on a rail. -/
def Rail.resetQos (p : Param) (r : Rail) : Rail :=
  { r with
    qosStatus := fun j => if j < p.numQosLevels then .active else r.qosStatus j
    qosData := fun j => if j < p.numQosLevels then 0 else r.qosData j }

/-- `issue_bw_monitor_event`. -/
def issueBwMonitorEvent (p : Param) (env : Env) (self : ℕ) (s : Terminal) (msg : Msg) :
    Result Terminal :=
  let rails := List.range p.numRails
  let levels := List.range p.numQosLevels
  { state := { s with
      rails := fun i => if i < p.numRails then (s.rails i).resetQos p else s.rails i }
    bf := {}
    msg := { msg with saved := { msg.saved with
      rcIsQosSet := true
      rcQosData := rails.map fun i => levels.map (s.rails i).qosData
      rcQosStatus := rails.map fun i => levels.map (s.rails i).qosStatus } }
    outs := if env.workloadsFinished then [] else [tBandwidthEvent env self] }

/-- `terminal_dally_event`: the handler of a terminal. -/
def terminalEvent (p : Param) (t : Topology p) (env : Env) (self : ℕ) (s : Terminal) (msg : Msg) :
    Option (Result Terminal) :=
  let msg := { msg with numRngs := 0 }
  match msg.type with
  | .tGenerate => packetGenerate p t env self s msg
  | .tArrive => packetArrive p env self s msg
  | .tSend => packetSend p env self s msg
  | .tBuffer => terminalBufUpdate p env self s msg
  | .tBandwidth => some (issueBwMonitorEvent p env self s msg)
  | .tNotify => some ⟨s, {}, msg, []⟩
  | _ => none

end CodesSim.Dally
