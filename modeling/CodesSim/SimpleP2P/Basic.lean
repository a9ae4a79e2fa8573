import CodesSim.Analytic.Basic
import CodesSim.SimpleP2P.Table
import Mathlib.Tactic.Linarith
import Mathlib.Tactic.Positivity

/-!
# The simplep2p LP

A NIC has a connection to each other NIC, with a bandwidth and a latency from the tables; all
connections may be active at the same time.  Next to the next-idle times of the connections it keeps
for each category when any of them was active (`CategoryIdles`), from which the active time in the
statistics is worked out.

`spEvent` is the event handler, `spRevEvent` its reverse and `spFinalize` what is reported at the
end.  The handlers return `none` where the source ends the program: a link that is not there, an
index out of range, a category too many.
-/

namespace CodesSim.SimpleP2P

open CodesMapping Function

/-- `category_idles`. -/
structure CategoryIdles where
  (sendNextIdleAll sendPrevIdleAll recvNextIdleAll recvPrevIdleAll : STime)
  category : String

/-- `sp_state`. -/
structure SpState where
  sendNextIdle : ℤ → STime
  recvNextIdle : ℤ → STime
  params : Param STime
  id : ℤ
  idleTimesCat : ℕ → CategoryIdles
  spStatsArray : StatsArray

/-- `sp_message`. -/
structure SpMsg extends NicMsg where
  srcMnRelId : ℤ
  destMnRelId : ℤ
  (sendNextIdleSaved recvNextIdleSaved sendTimeSaved recvTimeSaved sendNextIdleAllSaved : STime)
  (sendPrevIdleAllSaved recvNextIdleAllSaved recvPrevIdleAllSaved : STime)

/-- `sp_init` for an LP with these parameters and this id. -/
def spInit (params : Param STime) (id : ℤ) (now : STime) : SpState where
  sendNextIdle := fun _ => now
  recvNextIdle := fun _ => now
  params := params
  id := id
  idleTimesCat := fun _ => ⟨0, 0, 0, 0, ""⟩
  spStatsArray := .init

/-- `sp_get_table_ent`. -/
def spGetTableEnt (fromId toId isIncoming numLps : ℤ) (table : Table STime) : Option STime :=
  let i := tableIndex fromId toId isIncoming numLps
  if 0 ≤ i ∧ i < table.size then table.vals i.toNat else none

/-- `sp_get_category_idles`: the first slot with the name of the category or none. -/
def spGetCategoryIdles (idles : ℕ → CategoryIdles) (category : String) : Option ℕ :=
  (List.range categoryMax).find? fun i =>
    (idles i).category = "" ∨ (idles i).category = category

/-- A connection is there. -/
def SpState.HasConnection (ns : SpState) (relId : ℤ) : Prop := 0 ≤ relId ∧ relId < ns.params.numLps

instance (ns : SpState) (relId : ℤ) : Decidable (ns.HasConnection relId) :=
  inferInstanceAs (Decidable (_ ∧ _))

/-! ### Sending -/

/-- The counters after a message was sent. -/
def startStats (st : MnStats) (idles : CategoryIdles) (m : SpMsg) (totalEventSize : ℤ)
    (now : STime) : MnStats :=
  { st with
    category := m.category
    sendCount := st.sendCount + 1
    sendBytes := st.sendBytes + m.netMsgSizeBytes.toNat
    maxEventSize := if st.maxEventSize < totalEventSize then totalEventSize else st.maxEventSize
    -- there was an idle period between last idle and now
    sendTime := if now > idles.sendNextIdleAll then
        st.sendTime + (idles.sendNextIdleAll - idles.sendPrevIdleAll)
      else st.sendTime }

/-- The idle times after a message was sent on a connection that is active until `nextIdle`. -/
def startIdles (idles : CategoryIdles) (m : SpMsg) (now nextIdle : STime) : CategoryIdles :=
  { idles with
    category := m.category
    sendPrevIdleAll := if now > idles.sendNextIdleAll then now else idles.sendPrevIdleAll
    -- extend the active period (active until at least this request)
    sendNextIdleAll :=
      if nextIdle > idles.sendNextIdleAll then nextIdle else idles.sendNextIdleAll }

/-- How long a message waits for its connection. -/
def sendQueueTime (now : STime) (ns : SpState) (destRelId : ℤ) : STime :=
  if ns.sendNextIdle destRelId > now then ns.sendNextIdle destRelId - now else 0

/-- When a message that starts now has been transmitted. -/
def sendNextIdle (now : STime) (ns : SpState) (m : SpMsg) (destRelId : ℤ) (bw : STime) : STime :=
  sendQueueTime now ns destRelId + now + rateToNs m.netMsgSizeBytes bw

/-- A message is sent on a connection; `i` and `j` are the slots of its category. -/
def sendOn (c : NicCtx) (now : STime) (ns : SpState) (g : MsgGlobals) (m : SpMsg) (destRelId : ℤ)
    (bw latency : STime) (i j : ℕ) : NicResult SpState SpMsg :=
  let nextIdle := sendNextIdle now ns m destRelId bw
  let stat := ns.spStatsArray i
  let idles := ns.idleTimesCat j
  let saved :=
    { m with
      destMnRelId := destRelId
      sendNextIdleSaved := ns.sendNextIdle destRelId
      sendTimeSaved := stat.sendTime
      sendNextIdleAllSaved := idles.sendNextIdleAll
      sendPrevIdleAllSaved := idles.sendPrevIdleAll }
  let ready :=
    { saved with
      srcMnRelId := ns.id
      edata := m.forward c }
  { state :=
      { ns with
        sendNextIdle := update ns.sendNextIdle destRelId nextIdle
        spStatsArray :=
          update ns.spStatsArray i (startStats stat idles m (m.totalEventSize c) now)
        idleTimesCat := update ns.idleTimesCat j (startIdles idles m now nextIdle) }
    globals := (localEvent (μ := SpMsg) c g m.toNicMsg (sendQueueTime now ns destRelId)).1
    msg := saved
    out := .nic m.destMnLp (sendQueueTime now ns destRelId + latency) .ready ready ::
      (localEvent c g m.toNicMsg (sendQueueTime now ns destRelId)).2 }

/-- `handle_msg_start_event`. -/
def handleMsgStartEvent (c : NicCtx) (now : STime) (ns : SpState) (g : MsgGlobals) (m : SpMsg) :
    Option (NicResult SpState SpMsg) := do
  let destRelId ← (getLpRelativeId c.env.conf m.destMnLp false false).toOption
  let bw ← spGetTableEnt ns.id destRelId 0 ns.params.numLps ns.params.netBwMbpsTable
  let latency ← spGetTableEnt ns.id destRelId 0 ns.params.numLps ns.params.netLatencyNsTable
  if bw ≤ 0 ∨ latency < 0 ∨ ¬ ns.HasConnection destRelId then none
  else
    let i ← findStats ns.spStatsArray m.category
    let j ← spGetCategoryIdles ns.idleTimesCat m.category
    some (sendOn c now ns g m destRelId bw latency i j)

/-- The counters before a message was sent. -/
def undoStartStats (st : MnStats) (m : SpMsg) : MnStats :=
  { st with
    category := m.category
    sendCount := st.sendCount - 1
    sendBytes := st.sendBytes - m.netMsgSizeBytes.toNat
    sendTime := m.sendTimeSaved }

/-- The idle times before a message was sent. -/
def undoStartIdles (idles : CategoryIdles) (m : SpMsg) : CategoryIdles :=
  { idles with
    category := m.category
    sendNextIdleAll := m.sendNextIdleAllSaved
    sendPrevIdleAll := m.sendPrevIdleAllSaved }

/-- The state before a message was sent; `i` and `j` are the slots of its category. -/
def undoSend (c : NicCtx) (ns : SpState) (g : MsgGlobals) (m : SpMsg) (i j : ℕ) :
    NicUndone SpState :=
  { state :=
      { ns with
        spStatsArray := update ns.spStatsArray i (undoStartStats (ns.spStatsArray i) m)
        sendNextIdle := update ns.sendNextIdle m.destMnRelId m.sendNextIdleSaved
        idleTimesCat := update ns.idleTimesCat j (undoStartIdles (ns.idleTimesCat j) m) }
    globals := localEventRc c g m.toNicMsg }

/-- `handle_msg_start_rev_event`. -/
def handleMsgStartRevEvent (c : NicCtx) (ns : SpState) (g : MsgGlobals) (m : SpMsg) :
    Option (NicUndone SpState) := do
  let i ← findStats ns.spStatsArray m.category
  let j ← spGetCategoryIdles ns.idleTimesCat m.category
  if ¬ ns.HasConnection m.destMnRelId then none else some (undoSend c ns g m i j)

/-! ### Receiving -/

/-- The counters after a message was received. -/
def readyStats (st : MnStats) (idles : CategoryIdles) (m : SpMsg) (now : STime) : MnStats :=
  { st with
    category := m.category
    recvCount := st.recvCount + 1
    recvBytes := st.recvBytes + m.netMsgSizeBytes.toNat
    recvTime := if now > idles.recvNextIdleAll then
        st.recvTime + (idles.recvNextIdleAll - idles.recvPrevIdleAll)
      else st.recvTime }

/-- The idle times after a message was received on a connection that is active until `nextIdle`. -/
def readyIdles (idles : CategoryIdles) (m : SpMsg) (now nextIdle : STime) : CategoryIdles :=
  { idles with
    category := m.category
    recvPrevIdleAll := if now > idles.recvNextIdleAll then now else idles.recvPrevIdleAll
    recvNextIdleAll :=
      if nextIdle > idles.recvNextIdleAll then nextIdle else idles.recvNextIdleAll }

/-- How long it takes until a message that arrives now has been received. -/
def recvQueueTime (now : STime) (ns : SpState) (m : SpMsg) (bw : STime) : STime :=
  let idle := ns.recvNextIdle m.srcMnRelId
  (if idle > now then idle - now else 0) + rateToNs m.netMsgSizeBytes bw

/-- A message is received on a connection; `i` and `j` are the slots of its category. -/
def receiveOn (now : STime) (ns : SpState) (m : SpMsg) (bw : STime) (i j : ℕ) : SpState :=
  let nextIdle := recvQueueTime now ns m bw + now
  let idles := ns.idleTimesCat j
  { ns with
    recvNextIdle := update ns.recvNextIdle m.srcMnRelId nextIdle
    spStatsArray :=
      update ns.spStatsArray i (readyStats (ns.spStatsArray i) idles m now)
    idleTimesCat := update ns.idleTimesCat j (readyIdles idles m now nextIdle) }

/-- The message with what the reverse handler needs. -/
def saveReady (ns : SpState) (m : SpMsg) (i j : ℕ) (eventRc : ℤ) : SpMsg :=
  { m with
    recvNextIdleSaved := ns.recvNextIdle m.srcMnRelId
    recvTimeSaved := (ns.spStatsArray i).recvTime
    recvNextIdleAllSaved := (ns.idleTimesCat j).recvNextIdleAll
    recvPrevIdleAllSaved := (ns.idleTimesCat j).recvPrevIdleAll
    eventRc := eventRc }

/-- `handle_msg_ready_event`. -/
def handleMsgReadyEvent (c : NicCtx) (now : STime) (ns : SpState) (g : MsgGlobals) (m : SpMsg) :
    Option (NicResult SpState SpMsg) := do
  let bw ← spGetTableEnt m.srcMnRelId ns.id 1 ns.params.numLps ns.params.netBwMbpsTable
  let latency ← spGetTableEnt m.srcMnRelId ns.id 1 ns.params.numLps ns.params.netLatencyNsTable
  if bw ≤ 0 ∨ latency < 0 ∨ ¬ ns.HasConnection m.srcMnRelId then none
  else
    let i ← findStats ns.spStatsArray m.category
    let j ← spGetCategoryIdles ns.idleTimesCat m.category
    let (eventRc, g', out) ←
      deliver c .simplep2p g m.toNicMsg now (recvQueueTime now ns m bw)
    some ⟨receiveOn now ns m bw i j, g', saveReady ns m i j eventRc, out⟩

/-- The counters before a message was received. -/
def undoReadyStats (st : MnStats) (m : SpMsg) : MnStats :=
  { st with
    category := m.category
    recvCount := st.recvCount - 1
    recvBytes := st.recvBytes - m.netMsgSizeBytes.toNat
    recvTime := m.recvTimeSaved }

/-- The idle times before a message was received. -/
def undoReadyIdles (idles : CategoryIdles) (m : SpMsg) : CategoryIdles :=
  { idles with
    category := m.category
    recvNextIdleAll := m.recvNextIdleAllSaved
    recvPrevIdleAll := m.recvPrevIdleAllSaved }

/-- The state before a message was received; `i` and `j` are the slots of its category. -/
def undoReceive (c : NicCtx) (ns : SpState) (g : MsgGlobals) (m : SpMsg) (i j : ℕ) :
    NicUndone SpState :=
  { state :=
      { ns with
        spStatsArray := update ns.spStatsArray i (undoReadyStats (ns.spStatsArray i) m)
        recvNextIdle := update ns.recvNextIdle m.srcMnRelId m.recvNextIdleSaved
        idleTimesCat := update ns.idleTimesCat j (undoReadyIdles (ns.idleTimesCat j) m) }
    globals := deliverRc c g m.toNicMsg }

/-- `handle_msg_ready_rev_event`. -/
def handleMsgReadyRevEvent (c : NicCtx) (ns : SpState) (g : MsgGlobals) (m : SpMsg) :
    Option (NicUndone SpState) := do
  let i ← findStats ns.spStatsArray m.category
  let j ← spGetCategoryIdles ns.idleTimesCat m.category
  if ¬ ns.HasConnection m.srcMnRelId then none else some (undoReceive c ns g m i j)

/-! ### Events -/

/-- `sp_event`. -/
def spEvent (c : NicCtx) (now : STime) (ns : SpState) (g : MsgGlobals) :
    NicEventType → SpMsg → Option (NicResult SpState SpMsg)
  | .start, m => handleMsgStartEvent c now ns g m
  | .ready, m => handleMsgReadyEvent c now ns g m

/-- `sp_rev_event`. -/
def spRevEvent (c : NicCtx) (ns : SpState) (g : MsgGlobals) :
    NicEventType → SpMsg → Option (NicUndone SpState)
  | .start, m => handleMsgStartRevEvent c ns g m
  | .ready, m => handleMsgReadyRevEvent c ns g m

/-- The LP handles one event after the other. -/
def spMachine (c : NicCtx) : Machine SpState (NicCall SpMsg) where
  step ns x := (spEvent { c with fresh := x.fresh } x.now ns x.globals x.type x.msg).map
    NicResult.state

/-- The counters of a slot with its last active ranges. -/
def lastRanges (st : MnStats) (idles : CategoryIdles) : MnStats :=
  { st with
    sendTime := st.sendTime + (idles.sendNextIdleAll - idles.sendPrevIdleAll)
    recvTime := st.recvTime + (idles.recvNextIdleAll - idles.recvPrevIdleAll) }

/-- The loop of `sp_finalize`, with `n` slots left from slot `i` on. -/
def spFinalizeFrom (idles : ℕ → CategoryIdles) : ℕ → ℕ → StatsArray → StatsArray
  | 0, _, stats => stats
  | n + 1, i, stats =>
    if (idles i).category = "" then stats
    else
      spFinalizeFrom idles n (i + 1)
        (update stats i (lastRanges (stats i) (idles i)))

/-- `sp_finalize`: the last active ranges are added. -/
def spFinalize (ns : SpState) : StatsArray :=
  spFinalizeFrom ns.idleTimesCat categoryMax 0 ns.spStatsArray

/-! ### What the handlers do -/

variable {c : NicCtx} {now : STime} {ns : SpState} {g : MsgGlobals} {m : SpMsg}
  {r : NicResult SpState SpMsg}

variable {bw : STime}

theorem rateToNs_nonneg {bytes : UInt64} (h : 0 < bw) : 0 ≤ rateToNs bytes bw := by
  rw [rateToNs]
  positivity

theorem le_sendNextIdle {destRelId : ℤ} (h : 0 < bw) :
    now ≤ sendNextIdle now ns m destRelId bw := by
  have hrate : 0 ≤ rateToNs m.netMsgSizeBytes bw := rateToNs_nonneg h
  rw [sendNextIdle, sendQueueTime]
  split_ifs <;> linarith

theorem recvQueueTime_nonneg (h : 0 < bw) : 0 ≤ recvQueueTime now ns m bw := by
  have hrate : 0 ≤ rateToNs m.netMsgSizeBytes bw := rateToNs_nonneg h
  rw [recvQueueTime]
  split_ifs <;> linarith

/-- A slot is found again. -/
theorem spGetCategoryIdles_update {idles : ℕ → CategoryIdles} {category : String} {j : ℕ}
    (h : spGetCategoryIdles idles category = some j) {y : CategoryIdles}
    (hy : y.category = category) :
    spGetCategoryIdles (update idles j y) category = some j := by
  rw [spGetCategoryIdles, List.find?_range_eq_some] at h ⊢
  obtain ⟨-, hj, hbefore⟩ := h
  refine ⟨by simp [hy], hj, fun k hk => ?_⟩
  rw [update_of_ne (Nat.ne_of_lt hk)]
  exact hbefore k hk

theorem handleMsgStartEvent_eq_some (h : handleMsgStartEvent c now ns g m = some r) :
    ∃ destRelId bw latency i j, 0 < bw ∧ ns.HasConnection destRelId ∧
      findStats ns.spStatsArray m.category = some i ∧
      spGetCategoryIdles ns.idleTimesCat m.category = some j ∧
      r = sendOn c now ns g m destRelId bw latency i j := by
  simp only [handleMsgStartEvent, Option.bind_eq_bind, Option.bind_eq_some_iff] at h
  obtain ⟨destRelId, -, bw, -, latency, -, h⟩ := h
  split_ifs at h with hguard
  simp only [Option.bind_eq_some_iff] at h
  obtain ⟨i, hi, j, hj, h⟩ := h
  rw [not_or, not_or, not_le, not_lt, not_not] at hguard
  exact ⟨destRelId, bw, latency, i, j, hguard.1, hguard.2.2, hi, hj, (Option.some.inj h).symm⟩

theorem handleMsgReadyEvent_eq_some (h : handleMsgReadyEvent c now ns g m = some r) :
    ∃ bw i j eventRc g' out, 0 < bw ∧ ns.HasConnection m.srcMnRelId ∧
      findStats ns.spStatsArray m.category = some i ∧
      spGetCategoryIdles ns.idleTimesCat m.category = some j ∧
      deliver c .simplep2p g m.toNicMsg now (recvQueueTime now ns m bw) =
        some (eventRc, g', out) ∧
      r = ⟨receiveOn now ns m bw i j, g', saveReady ns m i j eventRc, out⟩ := by
  simp only [handleMsgReadyEvent, Option.bind_eq_bind, Option.bind_eq_some_iff] at h
  obtain ⟨bw, -, latency, -, h⟩ := h
  split_ifs at h with hguard
  simp only [Option.bind_eq_some_iff] at h
  obtain ⟨i, hi, j, hj, ⟨eventRc, g', out⟩, hdeliver, h⟩ := h
  rw [not_or, not_or, not_le, not_lt, not_not] at hguard
  exact ⟨bw, i, j, eventRc, g', out, hguard.1, hguard.2.2, hi, hj, hdeliver,
    (Option.some.inj h).symm⟩

theorem handleMsgStartRevEvent_of_find {i j : ℕ}
    (hi : findStats ns.spStatsArray m.category = some i)
    (hj : spGetCategoryIdles ns.idleTimesCat m.category = some j)
    (hconn : ns.HasConnection m.destMnRelId) :
    handleMsgStartRevEvent c ns g m = some (undoSend c ns g m i j) := by
  simp only [handleMsgStartRevEvent, hi, hj, Option.bind_eq_bind, Option.bind_some]
  exact if_neg (not_not.2 hconn)

theorem handleMsgReadyRevEvent_of_find {i j : ℕ}
    (hi : findStats ns.spStatsArray m.category = some i)
    (hj : spGetCategoryIdles ns.idleTimesCat m.category = some j)
    (hconn : ns.HasConnection m.srcMnRelId) :
    handleMsgReadyRevEvent c ns g m = some (undoReceive c ns g m i j) := by
  simp only [handleMsgReadyRevEvent, hi, hj, Option.bind_eq_bind, Option.bind_some]
  exact if_neg (not_not.2 hconn)

end CodesSim.SimpleP2P
