import CodesSim.FatTree.Basic

/-!
# The terminal of a fat tree

The handlers of a terminal and their reverse handlers: `packetGenerate` cuts a packet into chunks
and queues them, `packetSend` puts a chunk on the link of a rail, `terminalBufUpdate` takes a credit
back and `packetArrive` takes a chunk that has reached its destination.

`rc_stack_gc` only frees entries that no reverse handler can pop any more; it is left out.
-/

namespace CodesSim.FatTree

open Function

variable (p : Param) (env : Env) (self : ℕ)

/-- `FTREE_HASH_TABLE_SIZE`. -/
def hashTableSize : ℕ := 4999

/-! ### Injection -/

/-- The rail of a packet: with adaptive selection the first one, from its own on, that has the
shortest queue. -/
def targetQueue (s : Terminal) (msg : Msg) : ℕ :=
  if p.railSelect = .adaptive ∧ toInt msg.totalSize > p.railSizeLimit then
    (List.range' 1 (p.portsPerNic - 1)).foldl (fun target i =>
      let next := (msg.railId + i) % p.portsPerNic
      if s.terminalLength next < s.terminalLength target then next else target) msg.railId
  else msg.railId

/-- The message that keeps the send loop of a queue going. -/
def tSendMsg (queue : ℕ) : Msg := { env.blank with type := .tSend, vcIndex := queue }

@[simp] theorem tSendMsg_type (queue : ℕ) : (tSendMsg env queue).type = .tSend := rfl

@[simp] theorem tSendMsg_vcIndex (queue : ℕ) : (tSendMsg env queue).vcIndex = queue := rfl

def tSendEvent (queue : ℕ) (delay : STime) : Out :=
  .event (.terminal self) delay (tSendMsg env queue)

/-- The statistics of a generated packet. -/
def MnStats.generated (msg : Msg) (st : MnStats) : MnStats :=
  let eventSize : ℤ := p.msgSz + msg.remoteEvent.length + msg.localEvent.length
  { st with
    sendCount := st.sendCount + 1
    sendBytes := st.sendBytes + msg.packetSize
    sendTime := st.sendTime + 1 / p.linkBandwidth * msg.packetSize
    maxEventSize := if st.maxEventSize < eventSize then eventSize else st.maxEventSize }

/-- The message of a packet once its rail is chosen. -/
def generatedMsg (s : Terminal) (msg : Msg) : Msg :=
  { msg with myNHop := 0, savedVc := targetQueue p s msg }

section

variable (s : Terminal) (msg : Msg)

@[simp] theorem generatedMsg_type : (generatedMsg p s msg).type = msg.type := rfl

@[simp] theorem generatedMsg_category : (generatedMsg p s msg).category = msg.category := rfl

@[simp] theorem generatedMsg_savedVc : (generatedMsg p s msg).savedVc = targetQueue p s msg := rfl

@[simp] theorem generatedMsg_railId : (generatedMsg p s msg).railId = msg.railId := rfl

@[simp] theorem generatedMsg_packetSize : (generatedMsg p s msg).packetSize = msg.packetSize := rfl

end

/-- The chunks of a packet. -/
def chunksOf (msg : Msg) : List Msg :=
  (List.range (numChunks msg.packetSize p.chunkSize)).map fun i => { msg with chunkId := i }

/-- The length of the queue of a packet behind the packet. -/
def lengthAfter (s : Terminal) (msg : Msg) : ℤ :=
  s.terminalLength (targetQueue p s msg) + numChunks msg.packetSize p.chunkSize * p.chunkSize

/-- There is room behind a packet, so the next one may be asked for. -/
def HasRoom (s : Terminal) (msg : Msg) : Prop := lengthAfter p s msg < p.cnVcSize

instance (s : Terminal) (msg : Msg) : Decidable (HasRoom p s msg) :=
  inferInstanceAs (Decidable (_ < _))

/-- `ft_packet_generate`; `none` is the failed assertion when all categories are taken. -/
def packetGenerate (s : Terminal) (msg : Msg) : Option (Result Terminal) :=
  let nicTs := env.lookahead + msg.packetSize * p.cnDelay + env.unif s.rngDraws
  let target := targetQueue p s msg
  let sent := generatedMsg p s msg
  let room := HasRoom p s msg
  let start := s.inSendLoop target = 0
  (updateStats s.stats msg.category (MnStats.generated p msg)).map fun stats =>
    { state := { s with
        packetGen := s.packetGen + 1
        rngDraws := s.rngDraws + 1
        terminalMsgs :=
          update s.terminalMsgs target (s.terminalMsgs target ++ chunksOf p sent)
        terminalLength := update s.terminalLength target (lengthAfter p s msg)
        issueIdle := if room then s.issueIdle else update s.issueIdle msg.railId 1
        lastBufFull := if room then s.lastBufFull
          else update s.lastBufFull msg.railId env.now
        latDraws := s.latDraws + if start then 1 else 0
        inSendLoop := if start then update s.inSendLoop target 1 else s.inSendLoop
        stats := stats }
      bf := { c11 := ¬ room, c5 := start }
      msg := { sent with saved := { msg.saved with
        busyTime := if room then msg.saved.busyTime else s.lastBufFull msg.railId } }
      outs := (if room then [.idle nicTs msg.railId] else []) ++
        if start then [tSendEvent env self target (env.latency s.latDraws)] else [] }

/-- The message with which a chunk arrives at the switch. -/
def toSwitch (vc : ℕ) (c : Msg) : Msg :=
  { c with
    type := .sArrive
    srcTerminalId := self
    railId := vc
    vcIndex := vc
    localEvent := []
    lastHop := .terminal }

@[simp] theorem toSwitch_type (vc : ℕ) (c : Msg) : (toSwitch self vc c).type = .sArrive := rfl

/-- A chunk completes a packet whose sender wants to know. -/
def Msg.HasLocal (c : Msg) : Prop := c.IsLast p ∧ c.localEvent ≠ []

instance (c : Msg) : Decidable (c.HasLocal p) := inferInstanceAs (Decidable (_ ∧ _))

/-- After a chunk was sent, the next ones `rest` are sent as well. -/
def GoesOn (s : Terminal) (vc : ℕ) (rest : List Msg) : Prop :=
  rest ≠ [] ∧ s.vcOccupancy vc + p.chunkSize + p.chunkSize ≤ p.cnVcSize

instance (s : Terminal) (vc : ℕ) (rest : List Msg) : Decidable (GoesOn p s vc rest) :=
  inferInstanceAs (Decidable (_ ∧ _))

/-- The time at which the link of a queue is free again, after the chunk `c`. -/
def availableAfter (s : Terminal) (vc : ℕ) (c : Msg) : STime :=
  max (s.terminalAvailableTime vc) env.now + (env.lookahead + env.lookahead * env.unif s.rngDraws +
    p.headDelay * chunkBytes p c (numChunks c.packetSize p.chunkSize))

/-- The part of `ft_packet_send` for the chunk `c`, with `rest` behind it. -/
def sendChunk (t : Topology) (s : Terminal) (msg c : Msg) (rest : List Msg) : Result Terminal :=
  let vc := msg.vcIndex
  let offset := availableAfter p env s vc c - env.now
  let more := GoesOn p s vc rest
  let idle := s.issueIdle vc ≠ 0
  let lat := s.latDraws + if c.HasLocal p then 1 else 0
  { state := { s with
      terminalAvailableTime :=
        update s.terminalAvailableTime vc (availableAfter p env s vc c)
      packetCounter := s.packetCounter + 1
      vcOccupancy := update s.vcOccupancy vc (s.vcOccupancy vc + p.chunkSize)
      terminalMsgs := update s.terminalMsgs vc rest
      st := .chunk c :: s.st
      terminalLength := update s.terminalLength vc (s.terminalLength vc - p.chunkSize)
      rngDraws := s.rngDraws + if more then 2 else 1
      inSendLoop := if more then s.inSendLoop else update s.inSendLoop vc 0
      issueIdle := if idle then update s.issueIdle vc 0 else s.issueIdle
      latDraws := lat + if idle then 1 else 0 }
    bf := {
      c2 := c.HasLocal p
      c3 := more
      c4 := ¬ more
      c5 := idle
      c12 := ¬ (c.packetSize % p.chunkSize ≠ 0 ∧ c.IsLast p) }
    msg := { msg with saved := { msg.saved with availableTime := s.terminalAvailableTime vc } }
    outs := .event (.switch (t.switchLp self vc)) offset (toSwitch self vc c) ::
      ((if c.HasLocal p then [.server c.senderLp (env.latency s.latDraws) c.localEvent] else []) ++
      (if more then
        [tSendEvent env self vc (offset + env.lookahead * env.unif (s.rngDraws + 1))] else []) ++
      if idle then [.idle (env.latency lat) vc] else []) }

/-- The part of `ft_packet_send` for a queue that is empty or has no room at the switch. -/
def stopSending (s : Terminal) (msg : Msg) : Result Terminal where
  state := { s with
    inSendLoop := update s.inSendLoop msg.vcIndex 0
    lastBufFull := update s.lastBufFull msg.vcIndex env.now }
  bf := { c1 := true }
  msg := { msg with saved := { msg.saved with busyTime := s.lastBufFull msg.vcIndex } }
  outs := []

/-- `ft_packet_send`: the first chunk of a queue goes to the switch if there is room for it. -/
def packetSend (t : Topology) (s : Terminal) (msg : Msg) : Result Terminal :=
  match s.terminalMsgs msg.vcIndex with
  | [] => stopSending env s msg
  | c :: rest =>
    if s.vcOccupancy msg.vcIndex + p.chunkSize > p.cnVcSize then stopSending env s msg
    else sendChunk p env self t s msg c rest

/-! ### Credits -/

/-- A credit starts the send loop of a queue. -/
def Terminal.Resumes (s : Terminal) (vc : ℕ) : Prop := s.inSendLoop vc = 0 ∧ s.terminalMsgs vc ≠ []

instance (s : Terminal) (vc : ℕ) : Decidable (s.Resumes vc) := inferInstanceAs (Decidable (_ ∧ _))

/-- `ft_terminal_buf_update`. -/
def terminalBufUpdate (s : Terminal) (msg : Msg) : Result Terminal :=
  let vc := msg.vcIndex
  let full := 0 < s.lastBufFull vc
  let start := s.Resumes vc
  { state := { s with
      latDraws := s.latDraws + 1
      vcOccupancy := update s.vcOccupancy vc (s.vcOccupancy vc - p.chunkSize)
      busyTime := if full then
          update s.busyTime vc (s.busyTime vc + (env.now - s.lastBufFull vc))
        else s.busyTime
      busyTimeSample := if full then s.busyTimeSample + (env.now - s.lastBufFull vc)
        else s.busyTimeSample
      lastBufFull := if full then update s.lastBufFull vc 0 else s.lastBufFull
      inSendLoop := if start then update s.inSendLoop vc 1 else s.inSendLoop }
    bf := { c3 := full, c1 := start }
    msg := if full then { msg with saved := { msg.saved with
        totalTime := s.busyTime vc
        busyTime := s.lastBufFull vc
        sampleTime := s.busyTimeSample } }
      else msg
    outs := if start then [tSendEvent env self vc (env.latency s.latDraws)] else [] }

/-! ### Arrival -/

/-- The entry of the message of a chunk, with the chunk. -/
def arrivedEntry (s : Terminal) (msg : Msg) : HashEntry :=
  ((s.rankTbl msg.key).getD .empty).add msg.remoteEvent

/-- The message of a chunk is complete with it. -/
def Completes (s : Terminal) (msg : Msg) : Prop :=
  toInt (numChunks msg.totalSize p.chunkSize) ≤ (arrivedEntry s msg).numChunks

instance (s : Terminal) (msg : Msg) : Decidable (Completes p s msg) :=
  inferInstanceAs (Decidable (_ ≤ _))

/-- A chunk completes a message with a payload for its destination. -/
def Delivers (s : Terminal) (msg : Msg) : Prop :=
  Completes p s msg ∧ (arrivedEntry s msg).remoteEventData ≠ []

instance (s : Terminal) (msg : Msg) : Decidable (Delivers p s msg) :=
  inferInstanceAs (Decidable (_ ∧ _))

/-- A chunk completes a pull that is answered. -/
def Answers (s : Terminal) (msg : Msg) : Prop := Delivers p s msg ∧ msg.isPull

instance (s : Terminal) (msg : Msg) : Decidable (Answers p s msg) :=
  inferInstanceAs (Decidable (_ ∧ _))

/-- `ft_send_remote_event`: the payload goes to its destination, or a pull is answered.  The answer
to a pull takes its payload from the buffer of the event. -/
def sendRemoteEvent (s : Terminal) (msg : Msg) (data : List UInt8) : Out :=
  let ts := env.lookahead + env.unif s.rngDraws
  if msg.isPull then
    let edata := msg.remoteEvent ++ msg.localEvent ++ (List.range data.length).map env.behind
    .pull msg.senderMnLp msg.senderLp msg.pullSize msg.msgStartTime ts (edata.take data.length)
  else .server msg.finalDestGid ts data

/-- The counters of an arrived chunk. -/
def Terminal.countArrival (now : STime) (s : Terminal) (msg : Msg) : Terminal :=
  { s with
    finishedChunks := s.finishedChunks + 1
    finChunksSample := s.finChunksSample + 1
    dataSizeSample := s.dataSizeSample + msg.totalSize
    packetFin := s.packetFin + if msg.IsLast p then 1 else 0
    finishedPackets := s.finishedPackets + if msg.IsLast p then 1 else 0
    finChunksTime := s.finChunksTime + (now - msg.travelStartTime)
    totalTime := s.totalTime + (now - msg.travelStartTime)
    totalHops := s.totalHops + msg.myNHop
    finHopsSample := s.finHopsSample + msg.myNHop }

/-- The statistics of an arrived chunk. -/
def MnStats.received (now : STime) (msg : Msg) (st : MnStats) : MnStats :=
  { st with
    recvTime := st.recvTime + (now - msg.travelStartTime)
    recvCount := st.recvCount + if msg.IsLast p then 1 else 0
    recvBytes := st.recvBytes + if msg.IsLast p then msg.packetSize else 0 }

/-- The credit that an arrived chunk sends to the port of the switch it came from. -/
def arrivalCredit (t : Topology) (s : Terminal) (msg : Msg) : Out :=
  .event (.switch (t.switchLp self msg.railId))
    (env.lookahead + p.creditDelay + env.lookahead * env.unif s.rngDraws)
    { env.blank with type := .sBuffer, vcIndex := msg.vcIndex }

/-- The population of the table with the entry of an arrived chunk. -/
def popWith (s : Terminal) (msg : Msg) : ℕ :=
  s.rankTblPop + if s.rankTbl msg.key = none then 1 else 0

/-- `ft_packet_arrive`; `none` is a full table or the failed assertion when all categories are
taken. -/
def packetArrive (t : Topology) (s : Terminal) (msg : Msg) : Option (Result Terminal) :=
  let entry := arrivedEntry s msg
  let isNew := s.rankTbl msg.key = none
  let done := Completes p s msg
  if isNew ∧ hashTableSize ≤ popWith s msg then none
  else
    (findStats s.stats msg.category).bind fun i =>
    (updateStats s.stats msg.category (MnStats.received p env.now msg)).map fun stats =>
      let s' := { s.countArrival p env.now msg with stats := stats, rngDraws := s.rngDraws + 1 }
      { state := { s' with
          totalMsgSize := s.totalMsgSize + if done then msg.totalSize else 0
          finishedMsgs := s.finishedMsgs + if done then 1 else 0
          rngDraws := s'.rngDraws + if Delivers p s msg then 1 else 0
          -- `model_net_event_mctx` draws a latency of its own
          latDraws := s.latDraws + if Answers p s msg then 1 else 0
          rankTbl := update s.rankTbl msg.key (if done then none else some entry)
          rankTblPop := if done then popWith s msg - 1 else popWith s msg
          st := if done then .message entry :: s.st else s.st }
        bf := {
          c1 := msg.IsLast p
          c31 := msg.IsLast p
          c5 := isNew
          c7 := done
          c8 := Delivers p s msg
          c4 := Answers p s msg }
        msg := { msg with saved := { msg.saved with
          sampleTime := s.finChunksTime
          avgTime := s.totalTime
          rcvTime := (s.stats i).recvTime } }
        outs := arrivalCredit p env self t s msg ::
          if Delivers p s msg then [sendRemoteEvent env s' msg entry.remoteEventData] else [] }

/-- `ft_terminal_event`; `none` is an error. -/
def terminalEvent (t : Topology) (s : Terminal) (msg : Msg) : Option (Result Terminal) :=
  match msg.type with
  | .tGenerate => packetGenerate p env self s msg
  | .tArrive => packetArrive p env self t s msg
  | .tSend => some (packetSend p env self t s msg)
  | .tBuffer => some (terminalBufUpdate p env self s msg)
  | _ => none

/-! ### Reverse handlers -/

/-- `ft_packet_generate_rc`. -/
def packetGenerateRc (s : Terminal) (bf : Bf) (msg : Msg) : Option Terminal :=
  let num := numChunks msg.packetSize p.chunkSize
  let vc := msg.savedVc
  (returnTails num (s.terminalMsgs vc)).bind fun chunks =>
  (updateStats s.stats msg.category fun st => { st with
      sendCount := st.sendCount - 1
      sendBytes := st.sendBytes - msg.packetSize
      sendTime := st.sendTime - 1 / p.linkBandwidth * msg.packetSize }).map fun stats =>
    { s with
      packetGen := s.packetGen - 1
      rngDraws := s.rngDraws - 1
      terminalMsgs := update s.terminalMsgs vc chunks
      terminalLength := update s.terminalLength vc
        (s.terminalLength vc - num * p.chunkSize)
      issueIdle := if bf.c11 then update s.issueIdle msg.railId 0 else s.issueIdle
      lastBufFull := if bf.c11 then update s.lastBufFull msg.railId msg.saved.busyTime
        else s.lastBufFull
      latDraws := s.latDraws - if bf.c5 then 1 else 0
      inSendLoop := if bf.c5 then update s.inSendLoop vc 0 else s.inSendLoop
      stats := stats }

/-- `ft_packet_send_rc`. -/
def packetSendRc (s : Terminal) (bf : Bf) (msg : Msg) : Option Terminal :=
  let vc := msg.vcIndex
  if bf.c1 then
    some { s with
      inSendLoop := update s.inSendLoop vc 1
      lastBufFull := update s.lastBufFull vc msg.saved.busyTime }
  else
    match s.st with
    | .chunk c :: st => some { s with
        rngDraws := s.rngDraws - if bf.c3 then 2 else 1
        terminalAvailableTime :=
          update s.terminalAvailableTime vc msg.saved.availableTime
        latDraws := s.latDraws - (if bf.c2 then 1 else 0) - if bf.c5 then 1 else 0
        packetCounter := s.packetCounter - 1
        vcOccupancy := update s.vcOccupancy vc (s.vcOccupancy vc - p.chunkSize)
        st := st
        terminalMsgs := update s.terminalMsgs vc (c :: s.terminalMsgs vc)
        terminalLength := update s.terminalLength vc
          (s.terminalLength vc + p.chunkSize)
        inSendLoop := if bf.c4 then update s.inSendLoop vc 1 else s.inSendLoop
        issueIdle := if bf.c5 then update s.issueIdle vc 1 else s.issueIdle }
    | _ => none

/-- `ft_terminal_buf_update_rc`. -/
def terminalBufUpdateRc (s : Terminal) (bf : Bf) (msg : Msg) : Terminal :=
  let vc := msg.vcIndex
  { s with
    vcOccupancy := update s.vcOccupancy vc (s.vcOccupancy vc + p.chunkSize)
    latDraws := s.latDraws - 1
    busyTime := if bf.c3 then update s.busyTime vc msg.saved.totalTime else s.busyTime
    lastBufFull := if bf.c3 then update s.lastBufFull vc msg.saved.busyTime
      else s.lastBufFull
    busyTimeSample := if bf.c3 then msg.saved.sampleTime else s.busyTimeSample
    inSendLoop := if bf.c1 then update s.inSendLoop vc 0 else s.inSendLoop }

/-- The part of `ft_packet_arrive_rc` that takes a chunk from the entry of its message. -/
def dropChunk (s : Terminal) (key : RankKey) (e : HashEntry) : Terminal :=
  if e.numChunks - 1 = 0 then
    { s with rankTbl := update s.rankTbl key none, rankTblPop := s.rankTblPop - 1 }
  else
    { s with
      rankTbl := update s.rankTbl key (some { e with numChunks := e.numChunks - 1 }) }

/-- `ft_packet_arrive_rc`; `none` is an error or a missing entry. -/
def packetArriveRc (s : Terminal) (bf : Bf) (msg : Msg) : Option Terminal :=
  (updateStats s.stats msg.category fun st => { st with
      recvTime := msg.saved.rcvTime
      recvCount := st.recvCount - if bf.c1 then 1 else 0
      recvBytes := st.recvBytes - if bf.c1 then msg.packetSize else 0 }).bind fun stats =>
    let s := { s with
      rngDraws := s.rngDraws - 1
      finishedChunks := s.finishedChunks - 1
      finChunksSample := s.finChunksSample - 1
      dataSizeSample := s.dataSizeSample - msg.totalSize
      packetFin := s.packetFin - if bf.c31 then 1 else 0
      finChunksTime := msg.saved.sampleTime
      totalTime := msg.saved.avgTime
      totalHops := s.totalHops - msg.myNHop
      finHopsSample := s.finHopsSample - msg.myNHop
      finishedPackets := s.finishedPackets - if bf.c1 then 1 else 0
      stats := stats }
    if bf.c7 then
      match s.st with
      | .message e :: st =>
        if s.rankTblPop + 1 ≥ hashTableSize then none
        else some (dropChunk { s with
          rngDraws := s.rngDraws - if bf.c8 then 1 else 0
          finishedMsgs := s.finishedMsgs - 1
          totalMsgSize := s.totalMsgSize - msg.totalSize
          st := st
          rankTbl := update s.rankTbl msg.key (some e)
          rankTblPop := s.rankTblPop + 1 } msg.key e)
      | _ => none
    else (s.rankTbl msg.key).map fun e => dropChunk s msg.key e

/-- `ft_terminal_rc_event_handler`. -/
def terminalRcEventHandler (r : Result Terminal) : Option Terminal :=
  match r.msg.type with
  | .tGenerate => packetGenerateRc p r.state r.bf r.msg
  | .tSend => packetSendRc p r.state r.bf r.msg
  | .tArrive => packetArriveRc r.state r.bf r.msg
  | .tBuffer => some (terminalBufUpdateRc p r.state r.bf r.msg)
  | _ => some r.state

end CodesSim.FatTree
