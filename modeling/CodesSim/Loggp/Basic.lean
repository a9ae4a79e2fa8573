import CodesSim.Analytic.Basic

/-!
# The loggp LP

A NIC transmits one packet after the other, with the parameters of the LogGP model for the size of
the packet: the latency `L`, the gap `g` after a packet and the gap per byte `G`, all in
microseconds.  Packets go to the receive queue of the other side, which hands them to the NIC there
(`loggpRecvMsgEvent`).

`loggpEvent` is the event handler and `loggpRevEvent` its reverse; they return `none` where the
source ends the program or reads in front of the table of parameters.
-/

namespace CodesSim.Loggp

open Function

/-- `param_table_entry`: the parameters for packets below a size. -/
structure ParamTableEntry where
  size : UInt64
  (L g G : STime)

/-- `loggp_state`; the parameters are a table. -/
structure LoggpState where
  netSendNextIdle : STime
  netRecvNextIdle : STime
  params : List ParamTableEntry
  loggpStatsArray : StatsArray

/-- `loggp_message`. -/
structure LoggpMsg extends NicMsg where
  schedParams : SchedParams
  (netSendNextIdleSaved netRecvNextIdleSaved xmitTimeSaved recvTimeSaved : STime)

/-- `loggp_init` for an LP with these parameters. -/
def loggpInit (params : List ParamTableEntry) (now : STime) : LoggpState where
  netSendNextIdle := now
  netRecvNextIdle := now
  params := params
  loggpStatsArray := .init

/-- `find_params`: the first entry for larger packets, or the last entry. -/
def findParams (msgSize : UInt64) (params : List ParamTableEntry) : Option ParamTableEntry :=
  let i := params.findIdx fun e => e.size > msgSize
  params[if i ≥ params.length then params.length - 1 else i]?

/-- The time that a packet is transmitted, in nanoseconds; the difference is one of 64-bit words. -/
def xmitTime (size : UInt64) (param : ParamTableEntry) : STime :=
  (size - 1).toNat * param.G * 1000

variable (c : NicCtx) (now : STime) (ns : LoggpState) (g : MsgGlobals) (m : LoggpMsg)

/-! ### Sending -/

/-- The counters after a packet was sent. -/
def startStats (param : ParamTableEntry) (st : MnStats) : MnStats :=
  { st with
    category := m.category
    sendCount := st.sendCount + 1
    sendBytes := st.sendBytes + m.netMsgSizeBytes.toNat
    sendTime := st.sendTime + xmitTime m.netMsgSizeBytes param
    maxEventSize := if st.maxEventSize < m.totalEventSize c then m.totalEventSize c
      else st.maxEventSize }

/-- How long it takes until a packet that starts now is at the other side. -/
def sendQueueTime (param : ParamTableEntry) : STime :=
  param.L * 1000 + if ns.netSendNextIdle > now then ns.netSendNextIdle - now else 0

/-- When the NIC may transmit again, with the gap. -/
def sendNextIdle (param : ParamTableEntry) : STime :=
  (if ns.netSendNextIdle < now then now else ns.netSendNextIdle) +
    (xmitTime m.netMsgSizeBytes param + param.g * 1000)

/-- The request that `model_net_method_send_msg_recv_event` sends to the receive queue. -/
def recvQueueMsg : BaseMsg :=
  { c.fresh with
    req :=
      { c.fresh.req with
        finalDestLp := m.finalDestGid
        srcLp := m.srcGid
        destMnLp := c.gid
        pullSize := m.pullSize
        msgSize := m.netMsgSizeBytes
        packetSize := m.netMsgSizeBytes
        netId := .loggp
        isPull := m.isPull
        remoteEventSize := m.eventSizeBytes
        selfEventSize := 0
        category := cutCategory m.category }
    isFromRemote := true
    schedParams := m.schedParams
    data := if m.eventSizeBytes > 0 then m.forward c else c.fresh.data }

/-- A packet is sent; `i` is the slot of its category. -/
def sendPacket (param : ParamTableEntry) (i : ℕ) : NicResult LoggpState LoggpMsg :=
  let nextIdle := sendNextIdle now ns m param
  let queueTime := sendQueueTime now ns param
  -- the event for the receive queue and the idle event draw a latency each
  let g₁ := g.draw c.gid
  let g₂ := g₁.draw c.gid
  { state :=
      { ns with
        netSendNextIdle := nextIdle
        loggpStatsArray :=
          update ns.loggpStatsArray i (startStats c m param (ns.loggpStatsArray i)) }
    globals := (localEvent (μ := LoggpMsg) c g₂ m.toNicMsg queueTime).1
    msg :=
      { m with
        xmitTimeSaved := xmitTime m.netMsgSizeBytes param
        netSendNextIdleSaved := ns.netSendNextIdle }
    out := [.recvMsg m.destMnLp (queueTime + localLatency c g) (recvQueueMsg c m),
      .idle (localLatency c g₁ + nextIdle - now) false] ++
        (localEvent c g₂ m.toNicMsg queueTime).2 }

/-- `handle_msg_start_event`. -/
def handleMsgStartEvent : Option (NicResult LoggpState LoggpMsg) := do
  let param ← findParams m.netMsgSizeBytes ns.params
  let i ← findStats ns.loggpStatsArray m.category
  some (sendPacket c now ns g m param i)

/-- The counters before a packet was sent. -/
def undoStartStats (st : MnStats) : MnStats :=
  { st with
    category := m.category
    sendCount := st.sendCount - 1
    sendBytes := st.sendBytes - m.netMsgSizeBytes.toNat
    sendTime := st.sendTime - m.xmitTimeSaved }

/-- The state before a packet was sent. -/
def undoSend (i : ℕ) : NicUndone LoggpState :=
  { state :=
      { ns with
        netSendNextIdle := m.netSendNextIdleSaved
        loggpStatsArray :=
          update ns.loggpStatsArray i (undoStartStats m (ns.loggpStatsArray i)) }
    globals := localEventRc c ((g.undraw c.gid 1).undraw c.gid 1) m.toNicMsg }

/-- `handle_msg_start_rev_event`. -/
def handleMsgStartRevEvent : Option (NicUndone LoggpState) :=
  (findStats ns.loggpStatsArray m.category).map (undoSend c ns g m)

/-! ### Receiving -/

/-- The counters after a packet was received. -/
def readyStats (param : ParamTableEntry) (st : MnStats) : MnStats :=
  { st with
    category := m.category
    recvCount := st.recvCount + 1
    recvBytes := st.recvBytes + m.netMsgSizeBytes.toNat
    recvTime := st.recvTime + xmitTime m.netMsgSizeBytes param }

/-- How long it takes until a packet that arrives now has been received. -/
def recvQueueTime (param : ParamTableEntry) : STime :=
  (if ns.netRecvNextIdle > now then ns.netRecvNextIdle - now else 0) +
    xmitTime m.netMsgSizeBytes param

/-- When the NIC may receive again, with the gap. -/
def recvNextIdle (param : ParamTableEntry) : STime :=
  recvQueueTime now ns m param + now + param.g * 1000

/-- A packet is received; `i` is the slot of its category. -/
def receivePacket (param : ParamTableEntry) (i : ℕ) : LoggpState :=
  { ns with
    netRecvNextIdle := recvNextIdle now ns m param
    loggpStatsArray :=
      update ns.loggpStatsArray i (readyStats m param (ns.loggpStatsArray i)) }

/-- The message with what the reverse handler needs. -/
def saveReady (param : ParamTableEntry) (eventRc : ℤ) : LoggpMsg :=
  { m with
    recvTimeSaved := xmitTime m.netMsgSizeBytes param
    netRecvNextIdleSaved := ns.netRecvNextIdle
    eventRc := eventRc }

/-- `handle_msg_ready_event`. -/
def handleMsgReadyEvent : Option (NicResult LoggpState LoggpMsg) := do
  let param ← findParams m.netMsgSizeBytes ns.params
  let i ← findStats ns.loggpStatsArray m.category
  let (eventRc, g', out) ← deliver c .loggp (g.draw c.gid) m.toNicMsg now
    (recvQueueTime now ns m param)
  some
    { state := receivePacket now ns m param i
      globals := g'
      msg := saveReady ns m param eventRc
      out := .idle (localLatency c g + recvNextIdle now ns m param - now) true :: out }

/-- The counters before a packet was received. -/
def undoReadyStats (st : MnStats) : MnStats :=
  { st with
    category := m.category
    recvCount := st.recvCount - 1
    recvBytes := st.recvBytes - m.netMsgSizeBytes.toNat
    recvTime := st.recvTime - m.recvTimeSaved }

/-- The state before a packet was received. -/
def undoReceive (i : ℕ) : NicUndone LoggpState :=
  { state :=
      { ns with
        netRecvNextIdle := m.netRecvNextIdleSaved
        loggpStatsArray :=
          update ns.loggpStatsArray i (undoReadyStats m (ns.loggpStatsArray i)) }
    globals := deliverRc c (g.undraw c.gid 1) m.toNicMsg }

/-- `handle_msg_ready_rev_event`. -/
def handleMsgReadyRevEvent : Option (NicUndone LoggpState) :=
  (findStats ns.loggpStatsArray m.category).map (undoReceive c ns g m)

/-! ### Events -/

/-- `loggp_event`. -/
def loggpEvent : NicEventType → LoggpMsg → Option (NicResult LoggpState LoggpMsg)
  | .start, m => handleMsgStartEvent c now ns g m
  | .ready, m => handleMsgReadyEvent c now ns g m

/-- `loggp_rev_event`. -/
def loggpRevEvent : NicEventType → LoggpMsg → Option (NicUndone LoggpState)
  | .start, m => handleMsgStartRevEvent c ns g m
  | .ready, m => handleMsgReadyRevEvent c ns g m

/-- The LP handles one event after the other. -/
def loggpMachine : Machine LoggpState (NicCall LoggpMsg) where
  step ns x := (loggpEvent { c with fresh := x.fresh } x.now ns x.globals x.type x.msg).map
    NicResult.state

/-! ### Calls of the schedulers -/

/-- `loggp_packet_event`: the scheduler hands over a packet, which starts after a local latency.
`m₀` is what is found in the new event. -/
def loggpPacketEvent (m₀ : LoggpMsg) (offset : STime) (req : Request) (packetSize : UInt64)
    (schedParams : SchedParams) (remoteEvent selfEvent : Option (List UInt8)) (isLastPckt : Bool) :
    NicOut LoggpMsg :=
  let hasRemote := isLastPckt ∧ req.remoteEventSize ≠ 0
  let hasSelf := isLastPckt ∧ req.selfEventSize ≠ 0
  let data := if hasRemote then m₀.edata.write 0 (remoteEvent.getD []) else m₀.edata
  let behind := if hasRemote then req.remoteEventSize.toNat else 0
  .nic c.gid (localLatency c g + offset) .start
    { m₀ with
      category := req.category
      finalDestGid := req.finalDestLp
      destMnLp := req.destMnLp
      srcGid := req.srcLp
      srcMnLp := c.gid
      netMsgSizeBytes := packetSize
      eventSizeBytes := if hasRemote then req.remoteEventSize else 0
      localEventSizeBytes := if hasSelf then req.selfEventSize else 0
      isPull := req.isPull
      pullSize := req.pullSize
      schedParams := schedParams
      edata := if hasSelf then data.write behind (selfEvent.getD []) else data }

/-- `loggp_recv_msg_event`: the scheduler of the receive queue hands over a packet. -/
def loggpRecvMsgEvent (m₀ : LoggpMsg) (offset : STime) (category : String)
    (finalDestLp srcMnLp : Lpid) (msgSize : UInt64) (isPull : Bool) (pullSize : UInt64)
    (remoteEventSize : ℤ) (remoteEvent : Option (List UInt8)) (srcLp : Lpid) : NicOut LoggpMsg :=
  .nic c.gid (offset + localLatency c g) .ready
    { m₀ with
      srcGid := srcLp
      srcMnLp := srcMnLp
      finalDestGid := finalDestLp
      netMsgSizeBytes := msgSize
      eventSizeBytes := remoteEventSize
      localEventSizeBytes := 0
      category := cutCategory category
      isPull := isPull
      pullSize := pullSize
      schedParams := defaultParams
      edata := if remoteEventSize > 0 then m₀.edata.write 0 (remoteEvent.getD []) else m₀.edata }

/-- What the NIC makes of a call of a scheduler. -/
def issue (m₀ : LoggpMsg) : MethodCall → NicOut LoggpMsg
  | .packet req _ packetSize schedParams remoteEvent selfEvent isLastPckt _ =>
    loggpPacketEvent c g m₀ 0 req packetSize schedParams remoteEvent selfEvent isLastPckt
  | .recvMsg category finalDestLp srcMnLp msgSize isPull pullSize remoteEventSize remoteEvent
      srcLp =>
    loggpRecvMsgEvent c g m₀ 0 category finalDestLp srcMnLp msgSize isPull pullSize
      remoteEventSize remoteEvent srcLp

/-! ### What the handlers do -/

variable {c now ns g m} {r : NicResult LoggpState LoggpMsg}

theorem handleMsgStartEvent_eq_some (h : handleMsgStartEvent c now ns g m = some r) :
    ∃ param i, findParams m.netMsgSizeBytes ns.params = some param ∧
      findStats ns.loggpStatsArray m.category = some i ∧ r = sendPacket c now ns g m param i := by
  simp only [handleMsgStartEvent, Option.bind_eq_bind, Option.bind_eq_some_iff] at h
  obtain ⟨param, hparam, i, hi, h⟩ := h
  exact ⟨param, i, hparam, hi, (Option.some.inj h).symm⟩

theorem handleMsgReadyEvent_eq_some (h : handleMsgReadyEvent c now ns g m = some r) :
    ∃ param i eventRc g' out, findParams m.netMsgSizeBytes ns.params = some param ∧
      findStats ns.loggpStatsArray m.category = some i ∧
      deliver c .loggp (g.draw c.gid) m.toNicMsg now (recvQueueTime now ns m param) =
        some (eventRc, g', out) ∧
      r = ⟨receivePacket now ns m param i, g', saveReady ns m param eventRc,
        .idle (localLatency c g + recvNextIdle now ns m param - now) true :: out⟩ := by
  simp only [handleMsgReadyEvent, Option.bind_eq_bind, Option.bind_eq_some_iff] at h
  obtain ⟨param, hparam, i, hi, ⟨eventRc, g', out⟩, hdeliver, h⟩ := h
  exact ⟨param, i, eventRc, g', out, hparam, hi, hdeliver, (Option.some.inj h).symm⟩

end CodesSim.Loggp
