import CodesSim.FatTree.Terminal

/-!
# The switch of a fat tree

The handlers of a switch and their reverse handlers: `switchPacketReceive` routes a chunk to a port
and gives it a place in the buffer there or parks it, `switchPacketSend` puts a chunk on the link of
a port, and `switchBufUpdate` takes a credit back and gives the place to a parked chunk.
-/

namespace CodesSim.FatTree

open Function

variable (p : Param) (env : Env) (conf : SwitchConf) (self : ℕ)

/-! ### Routing -/

/-- The loop over the ports for one with less load. -/
def leastLoaded (load : ℕ → ℤ) : List ℕ → ℕ → ℕ
  | [], best => best
  | port :: ports, best =>
    if load port < load best then
      if load port ≤ 0 then port else leastLoaded load ports port
    else leastLoaded load ports best

/-- The load of a port. -/
def Switch.load (s : Switch) (port : ℕ) : ℤ := s.vcOccupancy port + s.queuedLength port

/-- The terminal of a message as the routing counts them. -/
def destTermLocalId (msg : Msg) : ℕ :=
  if p.ftType = 2 then msg.destTerminalId / p.numRails else msg.destTerminalId

/-- A terminal hangs on this switch. -/
def SwitchConf.Attached (term : ℕ) : Prop :=
  conf.switchLevel = 0 ∧ conf.startLneigh ≤ term ∧ term < conf.endLneigh

instance (term : ℕ) : Decidable (conf.Attached term) := inferInstanceAs (Decidable (_ ∧ _ ∧ _))

/-- The ports among which a chunk to a terminal is sent on: from the first one up to the second. -/
def portRange (dest : ℕ) : ℕ × ℕ :=
  if conf.switchLevel = 0 then (conf.numLcons, conf.numCons)
  else if conf.switchLevel = 1 then
    let destSwitchId := dest / p.l0TermSize
    if p.numLevels = 2 ∨ (conf.startLneigh ≤ destSwitchId ∧ destSwitchId < conf.endLneigh) then
      let start := (destSwitchId - conf.startLneigh) * conf.conPerLneigh
      (start, start + conf.conPerLneigh)
    else (conf.numLcons, conf.numCons)
  else
    let start := dest / p.l1TermSize * p.linkRepetitions * conf.conPerLneigh
    (start, start + p.linkRepetitions * conf.conPerLneigh)

/-- `ft_get_output_port`: the port and the number of random numbers drawn; `none` is a failed
assertion, or the division by zero where the offset of the port is computed. -/
def getOutputPort (s : Switch) (msg : Msg) : Option (ℕ × ℤ) :=
  let dest := destTermLocalId p msg
  if p.routing = .static then
    if dest < p.numTerminals ∧ 0 ≤ conf.lft dest then some ((conf.lft dest).toNat, 0) else none
  else if conf.Attached dest then some (dest - conf.startLneigh, 0)
  else
    let (start, stop) := portRange p conf dest
    if start < stop then
      let port := env.randInteger s.rngDraws start stop
      let port := if s.load port = 0 then port
        else leastLoaded s.load (List.range' start (stop - start)) port
      if (if port < conf.numLcons then conf.conPerLneigh else conf.conPerUneigh) = 0 then none
      else some (port, 1)
    else none

/-- A port leads to a terminal. -/
def SwitchConf.ToTerminal (port : ℕ) : Prop := conf.switchLevel = 0 ∧ port < conf.numLcons

instance (port : ℕ) : Decidable (conf.ToTerminal port) := inferInstanceAs (Decidable (_ ∧ _))

/-- The size of the buffer of a port. -/
def SwitchConf.maxVcSize (port : ℕ) : ℕ := if conf.ToTerminal port then p.cnVcSize else p.vcSize

/-! ### Handlers -/

/-- `switch_credit_send`: the place of a chunk at the port `vc` it came from is free.  The delay
takes the random number at position `pos`. -/
def switchCreditSend (pos : ℤ) (msg : Msg) (vc : ℕ) : Out :=
  let ts := env.lookahead + p.creditDelay + env.lookahead * env.unif pos
  match msg.lastHop with
  | .terminal => .event (.terminal msg.srcTerminalId) ts
      { env.blank with type := .tBuffer, vcIndex := vc }
  | .link => .event msg.intmLpId ts { env.blank with type := .sBuffer, vcIndex := vc }

/-- The message that keeps the send loop of a port going. -/
def sSendMsg (port : ℕ) : Msg := { env.blank with type := .sSend, vcIndex := port }

@[simp] theorem sSendMsg_type (port : ℕ) : (sSendMsg env port).type = .sSend := rfl

@[simp] theorem sSendMsg_vcIndex (port : ℕ) : (sSendMsg env port).vcIndex = port := rfl

def sSendEvent (port : ℕ) (delay : STime) : Out :=
  .event (.switch self) delay (sSendMsg env port)

/-- A chunk as it is put into a list of a port. -/
def Msg.atPort (msg : Msg) (port : ℕ) : Msg :=
  { msg with vcIndex := port, myNHop := msg.myNHop + 1 }

/-- A chunk as it is parked at a port: it holds its place at the port it came from. -/
def Msg.parkedAt (msg : Msg) (port : ℕ) : Msg := { msg.atPort port with savedVc := msg.vcIndex }

/-- The part of `switch_packet_receive` for a chunk that gets a place at a port; `rng` is the
position of the random stream after the routing. -/
def receivePlaced (s : Switch) (msg : Msg) (port : ℕ) (rng : ℤ) : Result Switch :=
  let start := s.inSendLoop port = 0
  { state := { s with
      rngDraws := rng + 1
      pendingMsgs :=
        update s.pendingMsgs port (s.pendingMsgs port ++ [msg.atPort port])
      vcOccupancy := update s.vcOccupancy port (s.vcOccupancy port + p.chunkSize)
      latDraws := s.latDraws + if start then 1 else 0
      inSendLoop := if start then update s.inSendLoop port 1 else s.inSendLoop }
    bf := { c1 := true, c2 := start }
    msg := { msg with savedVc := port }
    outs := switchCreditSend p env rng msg msg.vcIndex ::
      if start then [sSendEvent env self port (env.latency s.latDraws)] else [] }

/-- The part of `switch_packet_receive` for a chunk that is parked. -/
def receiveParked (s : Switch) (msg : Msg) (port : ℕ) (rng : ℤ) : Result Switch where
  state := { s with
    rngDraws := rng
    queuedMsgs := update s.queuedMsgs port (s.queuedMsgs port ++ [msg.parkedAt port])
    queuedLength := update s.queuedLength port (s.queuedLength port + p.chunkSize)
    lastBufFull := update s.lastBufFull port env.now }
  bf := { c3 := true }
  msg := { msg with
    savedVc := port
    saved := { msg.saved with busyTime := s.lastBufFull port } }
  outs := []

/-- `switch_packet_receive`. -/
def switchPacketReceive (s : Switch) (msg : Msg) : Option (Result Switch) :=
  (getOutputPort p env conf s msg).bind fun (port, draws) =>
    if port < conf.radix then
      some (if s.vcOccupancy port + p.chunkSize ≤ conf.maxVcSize p port then
          receivePlaced p env self s msg port (s.rngDraws + draws)
        else receiveParked p env s msg port (s.rngDraws + draws))
    else none

/-- The number of chunks that `switch_packet_send` counts for a packet: whether the last one is cut
short it asks the message of the event and not the chunk. -/
def countedChunks (msg c : Msg) : ℕ :=
  let n := c.packetSize / p.chunkSize
  let n := if msg.packetSize % p.chunkSize ≠ 0 then n + 1 else n
  if n = 0 then 1 else n

/-- The message with which a chunk leaves a port. -/
def sentMsg (port : ℕ) (c : Msg) : Msg :=
  { c with
    type := if conf.ToTerminal port then .tArrive else .sArrive
    lastHop := .link
    intmLpId := .switch self }

/-- The time at which the link of a port is free again after the chunk `c`, without the delay of
the router. -/
def Switch.availableAfter (s : Switch) (port : ℕ) (bytes : ℕ) : STime :=
  max (s.nextOutputAvailableTime port) env.now +
    (env.lookahead + env.lookahead * env.unif s.rngDraws + p.headDelay * bytes)

/-- The part of `switch_packet_send` for the chunk `c`, with `rest` behind it. -/
def switchSendChunk (s : Switch) (msg c : Msg) (rest : List Msg) : Result Switch :=
  let port := msg.vcIndex
  let num := countedChunks p msg c
  let bytes := chunkBytes p c num
  let odd := c.packetSize % p.chunkSize ≠ 0 ∧ c.chunkId = num - 1
  let available := s.availableAfter p env port bytes
  { state := { s with
      nextOutputAvailableTime := update s.nextOutputAvailableTime port available
      linkTraffic := update s.linkTraffic port (s.linkTraffic port + bytes)
      pendingMsgs := update s.pendingMsgs port rest
      st := c :: s.st
      rngDraws := s.rngDraws + if rest = [] then 1 else 2
      inSendLoop := if rest = [] then update s.inSendLoop port 0 else s.inSendLoop }
    bf := { c11 := odd, c12 := ¬ odd, c3 := rest ≠ [], c4 := rest = [] }
    msg := { msg with
      savedVc := port
      saved := { msg.saved with availableTime := s.nextOutputAvailableTime port } }
    outs := .event (conf.portConnections port) (available + p.routerDelay - env.now)
        (sentMsg conf self port c) ::
      if rest = [] then [] else [sSendEvent env self port
        (available - env.now + env.lookahead * env.unif (s.rngDraws + 1))] }

/-- `switch_packet_send`. -/
def switchPacketSend (s : Switch) (msg : Msg) : Result Switch :=
  match s.pendingMsgs msg.vcIndex with
  | [] =>
    { state := { s with inSendLoop := update s.inSendLoop msg.vcIndex 0 }
      bf := { c1 := true }
      msg := { msg with savedVc := msg.vcIndex }
      outs := [] }
  | c :: rest => switchSendChunk p env conf self s msg c rest

/-- A place of a port is free, and the time for which its buffer was full ends. -/
def Switch.release (s : Switch) (port : ℕ) : Switch :=
  let full := s.lastBufFull port ≠ 0
  { s with
    vcOccupancy := update s.vcOccupancy port (s.vcOccupancy port - p.chunkSize)
    busyTime := if full then
        update s.busyTime port (s.busyTime port + (env.now - s.lastBufFull port))
      else s.busyTime
    busyTimeSample := if full then
        update s.busyTimeSample port
          (s.busyTimeSample port + (env.now - s.lastBufFull port))
      else s.busyTimeSample
    lastBufFull := if full then update s.lastBufFull port 0 else s.lastBufFull }

/-- A parked chunk gets a place, and its place at the port it came from is free. -/
def Switch.passOn (s : Switch) (port : ℕ) : Switch × List Out :=
  match s.queuedMsgs port with
  | [] => (s, [])
  | c :: rest =>
    ({ s with
        queuedMsgs := update s.queuedMsgs port rest
        queuedLength := update s.queuedLength port (s.queuedLength port - p.chunkSize)
        rngDraws := s.rngDraws + 1
        pendingMsgs := update s.pendingMsgs port (s.pendingMsgs port ++ [c])
        vcOccupancy := update s.vcOccupancy port (s.vcOccupancy port + p.chunkSize) },
      [switchCreditSend p env s.rngDraws c c.savedVc])

/-- A credit starts the send loop of a port. -/
def Switch.Resumes (s : Switch) (port : ℕ) : Prop :=
  s.inSendLoop port = 0 ∧ s.pendingMsgs port ≠ []

instance (s : Switch) (port : ℕ) : Decidable (s.Resumes port) := inferInstanceAs (Decidable (_ ∧ _))

/-- `switch_buf_update`. -/
def switchBufUpdate (s : Switch) (msg : Msg) : Result Switch :=
  let port := msg.vcIndex
  let full := s.lastBufFull port ≠ 0
  let (s', outs) := (s.release p env port).passOn p env port
  let start := s'.Resumes port
  { state := { s' with
      latDraws := s'.latDraws + if start then 1 else 0
      inSendLoop := if start then update s'.inSendLoop port 1 else s'.inSendLoop }
    bf := { c3 := full, c1 := s.queuedMsgs port ≠ [], c2 := start }
    msg := if full then { msg with saved := { msg.saved with
        rcvTime := s.busyTime port
        busyTime := s.lastBufFull port
        sampleTime := s.busyTimeSample port } }
      else msg
    outs := outs ++ if start then [sSendEvent env self port (env.latency s'.latDraws)] else [] }

/-- `switch_event`; `none` is an error. -/
def switchEvent (s : Switch) (msg : Msg) : Option (Result Switch) :=
  match msg.type with
  | .sSend => some (switchPacketSend p env conf self s msg)
  | .sArrive => switchPacketReceive p env conf self s msg
  | .sBuffer => some (switchBufUpdate p env self s msg)
  | _ => none

/-! ### Reverse handlers -/

/-- `switch_packet_receive_rc`. -/
def switchPacketReceiveRc (s : Switch) (bf : Bf) (msg : Msg) : Option Switch :=
  let port := msg.savedVc
  let s := { s with rngDraws := s.rngDraws - if p.routing ≠ .static then 1 else 0 }
  (if bf.c1 then
    (returnTails 1 (s.pendingMsgs port)).map fun pending =>
      let s := { s with
        rngDraws := s.rngDraws - 1
        pendingMsgs := update s.pendingMsgs port pending
        vcOccupancy := update s.vcOccupancy port (s.vcOccupancy port - p.chunkSize) }
      if bf.c2 then
        { s with latDraws := s.latDraws - 1, inSendLoop := update s.inSendLoop port 0 }
      else s
  else some s).bind fun s =>
  if bf.c3 then
    (returnTails 1 (s.queuedMsgs port)).map fun queued =>
      { s with
        queuedMsgs := update s.queuedMsgs port queued
        queuedLength := update s.queuedLength port (s.queuedLength port - p.chunkSize)
        lastBufFull := update s.lastBufFull port msg.saved.busyTime }
  else some s

/-- `switch_packet_send_rc`. -/
def switchPacketSendRc (s : Switch) (bf : Bf) (msg : Msg) : Option Switch :=
  let port := msg.savedVc
  if bf.c1 then some { s with inSendLoop := update s.inSendLoop port 1 }
  else
    match s.st with
    | [] => none
    | c :: st =>
      let traffic : ℤ := (if bf.c11 then c.packetSize % p.chunkSize else 0 : ℕ) +
        (if bf.c12 then p.chunkSize else 0 : ℕ)
      some { s with
        rngDraws := s.rngDraws - if bf.c3 then 2 else 1
        nextOutputAvailableTime :=
          update s.nextOutputAvailableTime port msg.saved.availableTime
        st := st
        linkTraffic := update s.linkTraffic port (s.linkTraffic port - traffic)
        pendingMsgs := update s.pendingMsgs port (c :: s.pendingMsgs port)
        inSendLoop := if bf.c4 then update s.inSendLoop port 1 else s.inSendLoop }

/-- `switch_buf_update_rc`. -/
def switchBufUpdateRc (s : Switch) (bf : Bf) (msg : Msg) : Option Switch :=
  let port := msg.vcIndex
  let s := { s with
    vcOccupancy := update s.vcOccupancy port (s.vcOccupancy port + p.chunkSize)
    busyTime := if bf.c3 then update s.busyTime port msg.saved.rcvTime else s.busyTime
    busyTimeSample := if bf.c3 then update s.busyTimeSample port msg.saved.sampleTime
      else s.busyTimeSample
    lastBufFull := if bf.c3 then update s.lastBufFull port msg.saved.busyTime
      else s.lastBufFull }
  (if bf.c1 then
    (s.pendingMsgs port).getLast?.map fun c =>
      { s with
        pendingMsgs := update s.pendingMsgs port (s.pendingMsgs port).dropLast
        rngDraws := s.rngDraws - 1
        queuedMsgs := update s.queuedMsgs port (c :: s.queuedMsgs port)
        vcOccupancy := update s.vcOccupancy port (s.vcOccupancy port - p.chunkSize)
        queuedLength := update s.queuedLength port (s.queuedLength port + p.chunkSize) }
  else some s).map fun s =>
  if bf.c2 then
    { s with latDraws := s.latDraws - 1, inSendLoop := update s.inSendLoop port 0 }
  else s

/-- `switch_rc_event_handler`. -/
def switchRcEventHandler (r : Result Switch) : Option Switch :=
  match r.msg.type with
  | .sSend => switchPacketSendRc p r.state r.bf r.msg
  | .sArrive => switchPacketReceiveRc p r.state r.bf r.msg
  | .sBuffer => switchBufUpdateRc p r.state r.bf r.msg
  | _ => some r.state

end CodesSim.FatTree
