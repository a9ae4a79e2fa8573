import CodesSim.Analytic.Basic

/-!
# The simplenet LP

A NIC sends one message after the other and receives one after the other; a message takes a startup
cost and its size over the bandwidth.  `snEvent` is the event handler and `snRevEvent` its reverse;
they return `none` where the source ends the program.
-/

namespace CodesSim.Simplenet

open Function

/-- `simplenet_param`. -/
structure SimplenetParam where
  netStartupNs : STime
  netBwMbps : STime

/-- `sn_state`. -/
structure SnState where
  netSendNextIdle : STime
  netRecvNextIdle : STime
  params : SimplenetParam
  snStatsArray : StatsArray

/-- `sn_message`. -/
structure SnMsg extends NicMsg where
  (netSendNextIdleSaved netRecvNextIdleSaved sendTimeSaved recvTimeSaved : STime)

/-- `sn_init` for an LP with these parameters. -/
def snInit (params : SimplenetParam) (now : STime) : SnState where
  netSendNextIdle := now
  netRecvNextIdle := now
  params := params
  snStatsArray := .init

variable (c : NicCtx) (now : STime) (ns : SnState) (g : MsgGlobals) (m : SnMsg)

/-- The time that a message is transmitted. -/
def SnState.rate : STime := rateToNs m.netMsgSizeBytes ns.params.netBwMbps

/-! ### Sending -/

/-- The counters after a message was sent. -/
def startStats (st : MnStats) : MnStats :=
  { st with
    category := m.category
    sendCount := st.sendCount + 1
    sendBytes := st.sendBytes + m.netMsgSizeBytes.toNat
    sendTime := st.sendTime + (ns.params.netStartupNs + ns.rate m)
    maxEventSize := if st.maxEventSize < m.totalEventSize c then m.totalEventSize c
      else st.maxEventSize }

/-- How long it takes until a message that starts now is at the other side. -/
def sendQueueTime : STime :=
  ns.params.netStartupNs + if ns.netSendNextIdle > now then ns.netSendNextIdle - now else 0

/-- A message is sent; `i` is the slot of its category. -/
def sendMsg (i : ℕ) : NicResult SnState SnMsg :=
  let queueTime := sendQueueTime now ns
  let nextIdle := queueTime + now + ns.rate m
  let saved :=
    { m with
      sendTimeSaved := (ns.snStatsArray i).sendTime
      netSendNextIdleSaved := ns.netSendNextIdle }
  { state :=
      { ns with
        netSendNextIdle := nextIdle
        snStatsArray := update ns.snStatsArray i (startStats c ns m (ns.snStatsArray i)) }
    globals := (localEvent (μ := SnMsg) c (g.draw c.gid) m.toNicMsg queueTime).1
    msg := saved
    out := [.nic m.destMnLp queueTime .ready { saved with edata := m.forward c },
      .idle (localLatency c g + nextIdle - now) false] ++
        (localEvent c (g.draw c.gid) m.toNicMsg queueTime).2 }

/-- `handle_msg_start_event`. -/
def handleMsgStartEvent : Option (NicResult SnState SnMsg) :=
  (findStats ns.snStatsArray m.category).map (sendMsg c now ns g m)

/-- The counters before a message was sent. -/
def undoStartStats (st : MnStats) : MnStats :=
  { st with
    category := m.category
    sendCount := st.sendCount - 1
    sendBytes := st.sendBytes - m.netMsgSizeBytes.toNat
    sendTime := m.sendTimeSaved }

/-- The state before a message was sent. -/
def undoSend (i : ℕ) : NicUndone SnState :=
  { state :=
      { ns with
        netSendNextIdle := m.netSendNextIdleSaved
        snStatsArray :=
          update ns.snStatsArray i (undoStartStats m (ns.snStatsArray i)) }
    globals := localEventRc c (g.undraw c.gid 1) m.toNicMsg }

/-- `handle_msg_start_rev_event`. -/
def handleMsgStartRevEvent : Option (NicUndone SnState) :=
  (findStats ns.snStatsArray m.category).map (undoSend c ns g m)

/-! ### Receiving -/

/-- The counters after a message was received. -/
def readyStats (st : MnStats) : MnStats :=
  { st with
    category := m.category
    recvCount := st.recvCount + 1
    recvBytes := st.recvBytes + m.netMsgSizeBytes.toNat
    recvTime := st.recvTime + ns.rate m }

/-- How long it takes until a message that arrives now has been received. -/
def recvQueueTime : STime :=
  (if ns.netRecvNextIdle > now then ns.netRecvNextIdle - now else 0) + ns.rate m

/-- A message is received; `i` is the slot of its category. -/
def receiveMsg (i : ℕ) : SnState :=
  { ns with
    netRecvNextIdle := recvQueueTime now ns m + now
    snStatsArray := update ns.snStatsArray i (readyStats ns m (ns.snStatsArray i)) }

/-- The message with what the reverse handler needs. -/
def saveReady (i : ℕ) (eventRc : ℤ) : SnMsg :=
  { m with
    recvTimeSaved := (ns.snStatsArray i).recvTime
    netRecvNextIdleSaved := ns.netRecvNextIdle
    eventRc := eventRc }

/-- `handle_msg_ready_event`. -/
def handleMsgReadyEvent : Option (NicResult SnState SnMsg) := do
  let i ← findStats ns.snStatsArray m.category
  let (eventRc, g', out) ← deliver c .simplenet g m.toNicMsg now (recvQueueTime now ns m)
  some ⟨receiveMsg now ns m i, g', saveReady ns m i eventRc, out⟩

/-- The counters before a message was received. -/
def undoReadyStats (st : MnStats) : MnStats :=
  { st with
    category := m.category
    recvCount := st.recvCount - 1
    recvBytes := st.recvBytes - m.netMsgSizeBytes.toNat
    recvTime := m.recvTimeSaved }

/-- The state before a message was received. -/
def undoReceive (i : ℕ) : NicUndone SnState :=
  { state :=
      { ns with
        netRecvNextIdle := m.netRecvNextIdleSaved
        snStatsArray :=
          update ns.snStatsArray i (undoReadyStats m (ns.snStatsArray i)) }
    globals := deliverRc c g m.toNicMsg }

/-- `handle_msg_ready_rev_event`. -/
def handleMsgReadyRevEvent : Option (NicUndone SnState) :=
  (findStats ns.snStatsArray m.category).map (undoReceive c ns g m)

/-! ### Events -/

/-- `sn_event`. -/
def snEvent : NicEventType → SnMsg → Option (NicResult SnState SnMsg)
  | .start, m => handleMsgStartEvent c now ns g m
  | .ready, m => handleMsgReadyEvent c now ns g m

/-- `sn_rev_event`. -/
def snRevEvent : NicEventType → SnMsg → Option (NicUndone SnState)
  | .start, m => handleMsgStartRevEvent c ns g m
  | .ready, m => handleMsgReadyRevEvent c ns g m

/-! ### What the handlers do -/

variable {c now ns g m} {r : NicResult SnState SnMsg}

theorem handleMsgStartEvent_eq_some (h : handleMsgStartEvent c now ns g m = some r) :
    ∃ i, findStats ns.snStatsArray m.category = some i ∧ r = sendMsg c now ns g m i := by
  obtain ⟨i, hi, hr⟩ := Option.map_eq_some_iff.1 h
  exact ⟨i, hi, hr.symm⟩

theorem handleMsgReadyEvent_eq_some (h : handleMsgReadyEvent c now ns g m = some r) :
    ∃ i eventRc g' out, findStats ns.snStatsArray m.category = some i ∧
      deliver c .simplenet g m.toNicMsg now (recvQueueTime now ns m) = some (eventRc, g', out) ∧
      r = ⟨receiveMsg now ns m i, g', saveReady ns m i eventRc, out⟩ := by
  simp only [handleMsgReadyEvent, Option.bind_eq_bind, Option.bind_eq_some_iff] at h
  obtain ⟨i, hi, ⟨eventRc, g', out⟩, hdeliver, h⟩ := h
  exact ⟨i, eventRc, g', out, hi, hdeliver, (Option.some.inj h).symm⟩

end CodesSim.Simplenet
