import CodesSim.Mesh.Basic

/-!
# The terminal of an express mesh

The handlers of a terminal and their reverse handlers: `packetGenerate` cuts a packet into chunks
and queues them, `packetSend` puts a chunk on the link to the router, `terminalBufUpdate` takes a
credit back and `packetArrive` takes a chunk that has reached its destination.

`rc_stack_gc` only frees entries that no reverse handler can pop any more; it is left out.
-/

namespace CodesSim.Mesh

open Function

/-! ### The state -/

/-- An entry of the stack for reverse computation. -/
inductive RcEntry where
  | chunk (msg : Msg)
  | message (entry : HashEntry)

/-- A terminal (`terminal_state`), with the positions of its random streams. -/
structure Terminal where
  /-- Bytes of a VC on the link or waiting for a port of the router. -/
  vcOccupancy : ℕ → ℤ
  terminalAvailableTime : STime
  terminalMsgs : ℕ → List Msg
  terminalLength : ℤ
  inSendLoop : ℕ
  /-- The scheduler waits until there is room. -/
  issueIdle : ℕ
  rankTbl : RankKey → Option HashEntry
  st : List RcEntry
  packetCounter : ℕ
  packetGen : ℤ
  packetFin : ℤ
  stats : StatsArray
  totalTime : STime
  (totalMsgSize totalHops finishedMsgs finishedChunks finishedPackets : ℤ)
  lastBufFull : STime
  busyTime : STime
  (finChunksSample dataSizeSample finHopsSample : ℤ)
  finChunksTime : STime
  busyTimeSample : STime
  /-- Draws of `codes_local_latency`. -/
  latDraws : ℤ
  /-- Draws of `tw_rand_unif` and `tw_rand_integer`. -/
  rngDraws : ℤ

/-- `terminal_init`. -/
def Terminal.init : Terminal where
  vcOccupancy _ := 0
  terminalAvailableTime := 0
  terminalMsgs _ := []
  terminalLength := 0
  inSendLoop := 0
  issueIdle := 0
  rankTbl _ := none
  st := []
  packetCounter := 0
  packetGen := 0
  packetFin := 0
  stats := StatsArray.init
  totalTime := 0
  totalMsgSize := 0
  totalHops := 0
  finishedMsgs := 0
  finishedChunks := 0
  finishedPackets := 0
  lastBufFull := 0
  busyTime := 0
  finChunksSample := 0
  dataSizeSample := 0
  finHopsSample := 0
  finChunksTime := 0
  busyTimeSample := 0
  latDraws := 0
  rngDraws := 0

variable (p : Param) (env : Env) (self : ℕ)

/-! ### Injection -/

/-- `local_packet_event`: the message with which a packet of a request is handed to the terminal;
`dest` is the terminal of its destination. -/
def packetEvent (selfLp : Lpid) (dest : ℕ) (req : Request) (packetSize : UInt64)
    (remoteEvent selfEvent : Option (List UInt8)) (isLastPckt : Bool) : Msg :=
  { env.blank with
    category := req.category
    finalDestGid := req.finalDestLp
    totalSize := req.msgSize.toNat
    senderLp := req.srcLp
    senderMnLp := selfLp
    packetSize := packetSize.toNat
    travelStartTime := env.now
    type := .tGenerate
    destTerminal := dest
    messageId := req.msgId.toNat
    isPull := req.isPull
    pullSize := req.pullSize.toNat
    msgStartTime := req.msgStartTime
    remoteEvent := if isLastPckt ∧ req.remoteEventSize > 0 then remoteEvent.getD [] else []
    localEvent := if isLastPckt ∧ req.selfEventSize > 0 then selfEvent.getD [] else [] }

/-- The message that keeps the send loop of a terminal going. -/
def tSendMsg : Msg := { env.blank with type := .tSend }

@[simp] theorem tSendMsg_type : (tSendMsg env).type = .tSend := rfl

def tSendEvent (delay : STime) : Out := .event (.terminal self) delay (tSendMsg env)

/-- The statistics of a generated packet. -/
def MnStats.generated (msg : Msg) (st : MnStats) : MnStats :=
  let eventSize : ℤ := p.msgSz + msg.remoteEvent.length + msg.localEvent.length
  { st with
    sendCount := st.sendCount + 1
    sendBytes := st.sendBytes + msg.packetSize
    sendTime := st.sendTime + p.cnDelay * msg.packetSize
    maxEventSize := if st.maxEventSize < eventSize then eventSize else st.maxEventSize }

/-- The message of a packet whose chunks wait for VC 0. -/
def generatedMsg (msg : Msg) : Msg :=
  { msg with myNHop := 0, saved := { msg.saved with channel := 0 } }

section

variable (msg : Msg)

@[simp] theorem generatedMsg_type : (generatedMsg msg).type = msg.type := rfl

@[simp] theorem generatedMsg_category : (generatedMsg msg).category = msg.category := rfl

@[simp] theorem generatedMsg_packetSize : (generatedMsg msg).packetSize = msg.packetSize := rfl

@[simp] theorem generatedMsg_channel : (generatedMsg msg).saved.channel = 0 := rfl

end

/-- The chunks of a packet. -/
def chunksOf (msg : Msg) : List Msg :=
  (List.range (numChunks msg.packetSize p.chunkSize)).map fun i => { msg with chunkId := i }

/-- The length of the queue behind a packet. -/
def lengthAfter (s : Terminal) (msg : Msg) : ℤ :=
  s.terminalLength + numChunks msg.packetSize p.chunkSize * p.chunkSize

/-- There is room behind a packet, so the next one may be asked for. -/
def HasRoom (s : Terminal) (msg : Msg) : Prop := lengthAfter p s msg < p.numVcs * p.cnVcSize

instance (s : Terminal) (msg : Msg) : Decidable (HasRoom p s msg) :=
  inferInstanceAs (Decidable (_ < _))

/-- `packet_generate`; `none` is a failed assertion: the packet is for its own terminal, or all
categories are taken. -/
def packetGenerate (s : Terminal) (msg : Msg) : Option (Result Terminal) :=
  let nicTs := env.lookahead + msg.packetSize * p.cnDelay + env.unif s.rngDraws
  let sent := generatedMsg msg
  let room := HasRoom p s msg
  let start := s.inSendLoop = 0
  if msg.destTerminal = self then none
  else
    (updateStats s.stats msg.category (MnStats.generated p msg)).map fun stats =>
      { state := { s with
          packetGen := s.packetGen + 1
          rngDraws := s.rngDraws + 1
          terminalMsgs :=
            update s.terminalMsgs 0 (s.terminalMsgs 0 ++ chunksOf p sent)
          terminalLength := lengthAfter p s msg
          issueIdle := if room then s.issueIdle else 1
          lastBufFull := if room then s.lastBufFull else env.now
          latDraws := s.latDraws + if start then 1 else 0
          inSendLoop := if start then 1 else s.inSendLoop
          stats := stats }
        bf := { c11 := ¬ room, c5 := start }
        msg := { sent with saved := { sent.saved with
          busyTime := if room then msg.saved.busyTime else s.lastBufFull } }
        outs := (if room then [.idle nicTs] else []) ++
          if start then [tSendEvent env self (env.latency s.latDraws)] else [] }

/-- The message with which a chunk of VC `vc` arrives at the router. -/
def toRouter (vc : ℕ) (c : Msg) : Msg :=
  { c with
    type := .rArrive
    srcTerminalId := self
    vcIndex := 0
    outputChan := vc
    localEvent := []
    lastHop := .terminal }

@[simp] theorem toRouter_type (vc : ℕ) (c : Msg) : (toRouter self vc c).type = .rArrive := rfl

/-- A chunk completes a packet whose sender wants to know. -/
def Msg.HasLocal (c : Msg) : Prop := c.IsLast p ∧ c.localEvent ≠ []

instance (c : Msg) : Decidable (c.HasLocal p) := inferInstanceAs (Decidable (_ ∧ _))

/-- The VCs that have a chunk and room for it. -/
def Terminal.sendVcs (s : Terminal) : List ℕ :=
  (List.range p.numVcs).filter fun vc =>
    s.terminalMsgs vc ≠ [] ∧ s.vcOccupancy vc + p.chunkSize ≤ p.cnVcSize

/-- The time at which the link is free again, after the chunk `c`. -/
def availableAfter (s : Terminal) (c : Msg) : STime :=
  max s.terminalAvailableTime env.now + (env.lookahead +
    chunkBytes p c (numChunks c.packetSize p.chunkSize) * p.cnDelay + env.unif (s.rngDraws + 1))

/-- The part of `packet_send` for the chunk `c` of VC `vc`, with `rest` behind it. -/
def sendChunk (router : ℕ) (s : Terminal) (msg c : Msg) (vc : ℕ) (rest : List Msg) :
    Result Terminal :=
  let offset := availableAfter p env s c - env.now
  let loop := offset + env.unif (s.rngDraws + 2)
  let idle := s.issueIdle ≠ 0
  let full := idle ∧ 0 < s.lastBufFull
  { state := { s with
      terminalAvailableTime := availableAfter p env s c
      packetCounter := s.packetCounter + 1
      vcOccupancy := update s.vcOccupancy vc (s.vcOccupancy vc + p.chunkSize)
      terminalMsgs := update s.terminalMsgs vc rest
      st := .chunk c :: s.st
      terminalLength := s.terminalLength - p.chunkSize
      rngDraws := s.rngDraws + if idle then 4 else 3
      latDraws := s.latDraws + if c.HasLocal p then 1 else 0
      issueIdle := if idle then 0 else s.issueIdle
      busyTime := if full then s.busyTime + (env.now - s.lastBufFull) else s.busyTime
      busyTimeSample := if full then s.busyTimeSample + (env.now - s.lastBufFull)
        else s.busyTimeSample
      lastBufFull := if full then 0 else s.lastBufFull }
    bf := { c2 := c.HasLocal p, c5 := idle, c6 := full }
    msg := { msg with saved := { msg.saved with
      channel := vc
      availableTime := s.terminalAvailableTime
      totalTime := if full then s.busyTime else msg.saved.totalTime
      busyTime := if full then s.lastBufFull else msg.saved.busyTime
      sampleTime := if full then s.busyTimeSample else msg.saved.sampleTime } }
    outs := .event (.router router) offset (toRouter self vc c) ::
      ((if c.HasLocal p then [.server c.senderLp (env.latency s.latDraws) c.localEvent] else []) ++
      [tSendEvent env self loop] ++
      if idle then [.idle (loop + env.unif (s.rngDraws + 3))] else []) }

/-- The part of `packet_send` for a terminal that has nothing to send or no room for it. -/
def stopSending (s : Terminal) (msg : Msg) : Result Terminal where
  state := { s with inSendLoop := 0, lastBufFull := env.now }
  bf := { c1 := true }
  msg := { msg with saved := { msg.saved with busyTime := s.lastBufFull } }
  outs := []

/-- `packet_send`: the first chunk of one of the VCs goes to the router. -/
def packetSend (s : Terminal) (msg : Msg) : Result Terminal :=
  if s.sendVcs p = [] then stopSending env s msg
  else
    let vc := env.pick s.rngDraws (s.sendVcs p)
    match s.terminalMsgs vc with
    | [] => stopSending env s msg
    | c :: rest => sendChunk p env self (self / p.numCn) s msg c vc rest

/-! ### Credits -/

/-- A credit starts the send loop. -/
def Terminal.Resumes (s : Terminal) : Prop :=
  s.inSendLoop = 0 ∧ ∃ vc < p.numVcs, s.terminalMsgs vc ≠ []

instance (s : Terminal) : Decidable (s.Resumes p) := inferInstanceAs (Decidable (_ ∧ _))

/-- `terminal_buf_update`. -/
def terminalBufUpdate (s : Terminal) (msg : Msg) : Result Terminal :=
  let vc := msg.outputChan
  let start := s.Resumes p
  { state := { s with
      vcOccupancy := update s.vcOccupancy vc (s.vcOccupancy vc - p.chunkSize)
      latDraws := s.latDraws + if start then 1 else 0
      inSendLoop := if start then 1 else s.inSendLoop }
    bf := { c1 := start }
    msg := msg
    outs := if start then [tSendEvent env self (env.latency s.latDraws)] else [] }

/-! ### Arrival -/

/-- The entry of the message of a chunk, with the chunk. -/
def arrivedEntry (s : Terminal) (msg : Msg) : HashEntry :=
  ((s.rankTbl msg.key).getD .empty).add msg.remoteEvent

/-- The message of a chunk is complete with it. -/
def Completes (s : Terminal) (msg : Msg) : Prop :=
  (numChunks msg.totalSize p.chunkSize : ℤ) ≤ (arrivedEntry s msg).numChunks

instance (s : Terminal) (msg : Msg) : Decidable (Completes p s msg) :=
  inferInstanceAs (Decidable (_ ≤ _))

/-- A chunk completes a message with a payload for its destination. -/
def Delivers (s : Terminal) (msg : Msg) : Prop :=
  Completes p s msg ∧ (arrivedEntry s msg).remoteEventData ≠ []

instance (s : Terminal) (msg : Msg) : Decidable (Delivers p s msg) :=
  inferInstanceAs (Decidable (_ ∧ _))

/-- A chunk completes a pull that is answered. -/
def Answers (s : Terminal) (msg : Msg) : Prop := Delivers p s msg ∧ msg.isPull

instance (s : Terminal) (msg : Msg) : Decidable (Answers p s msg) :=
  inferInstanceAs (Decidable (_ ∧ _))

/-- `send_remote_event`: the payload goes to its destination, or a pull is answered.  The answer to
a pull takes its payload from the buffer of the event. -/
def sendRemoteEvent (s : Terminal) (msg : Msg) (data : List UInt8) : Out :=
  let ts := env.lookahead + env.unif s.rngDraws
  if msg.isPull then
    let edata := msg.remoteEvent ++ msg.localEvent ++ (List.range data.length).map env.behind
    .pull msg.senderMnLp msg.senderLp msg.pullSize msg.msgStartTime ts (edata.take data.length)
  else .server msg.finalDestGid ts data

/-- The counters of an arrived chunk. -/
def Terminal.countArrival (now : STime) (s : Terminal) (msg : Msg) : Terminal :=
  { s with
    finishedChunks := s.finishedChunks + 1
    finChunksSample := s.finChunksSample + 1
    packetFin := s.packetFin + if msg.IsLast p then 1 else 0
    finishedPackets := s.finishedPackets + if msg.IsLast p then 1 else 0
    finChunksTime := s.finChunksTime + (now - msg.travelStartTime)
    totalTime := s.totalTime + (now - msg.travelStartTime)
    totalHops := s.totalHops + msg.myNHop
    finHopsSample := s.finHopsSample + msg.myNHop }

/-- The statistics of an arrived chunk. -/
def MnStats.received (now : STime) (msg : Msg) (st : MnStats) : MnStats :=
  { st with
    recvTime := st.recvTime + (now - msg.travelStartTime)
    recvCount := st.recvCount + if msg.IsLast p then 1 else 0
    recvBytes := st.recvBytes + if msg.IsLast p then msg.packetSize else 0 }

/-- The credit that an arrived chunk sends to the port of the router it came from. -/
def arrivalCredit (s : Terminal) (msg : Msg) : Out :=
  .event msg.intmLpId (env.lookahead + p.creditDelay + env.unif s.rngDraws)
    { env.blank with type := .rBuffer, vcIndex := msg.vcIndex, outputChan := msg.outputChan }

/-- `packet_arrive`; `none` is a failed assertion (the chunk is not for this terminal or comes from
it, or all categories are taken) or an overflow of the `int` that counts the chunks of a message. -/
def packetArrive (s : Terminal) (msg : Msg) : Option (Result Terminal) :=
  let entry := arrivedEntry s msg
  let done := Completes p s msg
  if msg.destTerminal = self ∧ msg.srcTerminalId ≠ self ∧ entry.numChunks < 2 ^ 31 then
    (findStats s.stats msg.category).bind fun i =>
    (updateStats s.stats msg.category (MnStats.received p env.now msg)).map fun stats =>
      let s' := { s.countArrival p env.now msg with stats := stats, rngDraws := s.rngDraws + 1 }
      { state := { s' with
          totalMsgSize := s.totalMsgSize + if done then msg.totalSize else 0
          dataSizeSample := s.dataSizeSample + if done then msg.totalSize else 0
          finishedMsgs := s.finishedMsgs + if done then 1 else 0
          rngDraws := s'.rngDraws + if Delivers p s msg then 1 else 0
          -- `model_net_event_mctx` draws a latency of its own
          latDraws := s.latDraws + if Answers p s msg then 1 else 0
          rankTbl := update s.rankTbl msg.key (if done then none else some entry)
          st := if done then .message entry :: s.st else s.st }
        bf := {
          c1 := msg.IsLast p
          c31 := msg.IsLast p
          c5 := s.rankTbl msg.key = none
          c7 := done
          c8 := Delivers p s msg
          c4 := Answers p s msg }
        msg := { msg with saved := { msg.saved with
          sampleTime := s.finChunksTime
          avgTime := s.totalTime
          rcvTime := (s.stats i).recvTime } }
        outs := arrivalCredit p env s msg ::
          if Delivers p s msg then [sendRemoteEvent env s' msg entry.remoteEventData] else [] }
  else none

/-- `terminal_event`; `none` is an error. -/
def terminalEvent (s : Terminal) (msg : Msg) : Option (Result Terminal) :=
  match msg.type with
  | .tGenerate => packetGenerate p env self s msg
  | .tArrive => packetArrive p env self s msg
  | .tSend => some (packetSend p env self s msg)
  | .tBuffer => some (terminalBufUpdate p env self s msg)
  | _ => none

/-! ### Reverse handlers -/

/-- `packet_generate_rc`. -/
def packetGenerateRc (s : Terminal) (bf : Bf) (msg : Msg) : Option Terminal :=
  let num := numChunks msg.packetSize p.chunkSize
  let vc := msg.saved.channel
  (returnTails num (s.terminalMsgs vc)).bind fun chunks =>
  (updateStats s.stats msg.category fun st => { st with
      sendCount := st.sendCount - 1
      sendBytes := st.sendBytes - msg.packetSize
      sendTime := st.sendTime - p.cnDelay * msg.packetSize }).map fun stats =>
    { s with
      packetGen := s.packetGen - 1
      rngDraws := s.rngDraws - 1
      terminalMsgs := update s.terminalMsgs vc chunks
      terminalLength := s.terminalLength - num * p.chunkSize
      issueIdle := if bf.c11 then 0 else s.issueIdle
      lastBufFull := if bf.c11 then msg.saved.busyTime else s.lastBufFull
      latDraws := s.latDraws - if bf.c5 then 1 else 0
      inSendLoop := if bf.c5 then 0 else s.inSendLoop
      stats := stats }

/-- `packet_send_rc`. -/
def packetSendRc (s : Terminal) (bf : Bf) (msg : Msg) : Option Terminal :=
  if bf.c1 then some { s with inSendLoop := 1, lastBufFull := msg.saved.busyTime }
  else
    let vc := msg.saved.channel
    match s.st with
    | .chunk c :: st => some { s with
        rngDraws := s.rngDraws - if bf.c5 then 4 else 3
        terminalAvailableTime := msg.saved.availableTime
        latDraws := s.latDraws - if bf.c2 then 1 else 0
        packetCounter := s.packetCounter - 1
        vcOccupancy := update s.vcOccupancy vc (s.vcOccupancy vc - p.chunkSize)
        st := st
        terminalMsgs := update s.terminalMsgs vc (c :: s.terminalMsgs vc)
        terminalLength := s.terminalLength + p.chunkSize
        issueIdle := if bf.c5 then 1 else s.issueIdle
        busyTime := if bf.c5 ∧ bf.c6 then msg.saved.totalTime else s.busyTime
        lastBufFull := if bf.c5 ∧ bf.c6 then msg.saved.busyTime else s.lastBufFull
        busyTimeSample := if bf.c5 ∧ bf.c6 then msg.saved.sampleTime else s.busyTimeSample }
    | _ => none

/-- `terminal_buf_update_rc`. -/
def terminalBufUpdateRc (s : Terminal) (bf : Bf) (msg : Msg) : Terminal :=
  let vc := msg.outputChan
  { s with
    vcOccupancy := update s.vcOccupancy vc (s.vcOccupancy vc + p.chunkSize)
    latDraws := s.latDraws - if bf.c1 then 1 else 0
    inSendLoop := if bf.c1 then 0 else s.inSendLoop }

/-- The part of `packet_arrive_rc` that takes a chunk from the entry of its message. -/
def dropChunk (s : Terminal) (bf : Bf) (key : RankKey) (e : HashEntry) : Terminal :=
  { s with
    rankTbl := update s.rankTbl key
      (if bf.c5 then none else some { e with numChunks := e.numChunks - 1 }) }

/-- `packet_arrive_rc`; `none` is a failed assertion or an empty stack. -/
def packetArriveRc (s : Terminal) (bf : Bf) (msg : Msg) : Option Terminal :=
  (updateStats s.stats msg.category fun st => { st with
      recvTime := msg.saved.rcvTime
      recvCount := st.recvCount - if bf.c1 then 1 else 0
      recvBytes := st.recvBytes - if bf.c1 then msg.packetSize else 0 }).bind fun stats =>
    let s := { s with
      rngDraws := s.rngDraws - 1
      finishedChunks := s.finishedChunks - 1
      finChunksSample := s.finChunksSample - 1
      packetFin := s.packetFin - if bf.c31 then 1 else 0
      finChunksTime := msg.saved.sampleTime
      totalTime := msg.saved.avgTime
      totalHops := s.totalHops - msg.myNHop
      finHopsSample := s.finHopsSample - msg.myNHop
      stats := stats
      finishedPackets := s.finishedPackets - if bf.c1 then 1 else 0 }
    if bf.c7 then
      match s.st with
      | .message e :: st =>
        some (dropChunk { s with
          totalMsgSize := s.totalMsgSize - msg.totalSize
          dataSizeSample := s.dataSizeSample - msg.totalSize
          finishedMsgs := s.finishedMsgs - 1
          rngDraws := s.rngDraws - if bf.c8 then 1 else 0
          st := st
          latDraws := s.latDraws - if bf.c4 then 1 else 0 } bf msg.key e)
      | _ => none
    else
      (s.rankTbl msg.key).map fun e => dropChunk s bf msg.key e

/-- `terminal_event_rc`. -/
def terminalEventRc (r : Result Terminal) : Option Terminal :=
  match r.msg.type with
  | .tGenerate => packetGenerateRc p r.state r.bf r.msg
  | .tSend => packetSendRc p r.state r.bf r.msg
  | .tArrive => packetArriveRc r.state r.bf r.msg
  | .tBuffer => some (terminalBufUpdateRc p r.state r.bf r.msg)
  | _ => some r.state

end CodesSim.Mesh
