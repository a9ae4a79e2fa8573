import CodesSim.Base.Event
import CodesSim.Base.Stats

/-!
# What the analytic networks share

simplenet, simplep2p and loggp have no routers.  The NIC that sends a message works out when it
reaches the NIC that receives it (`START`), and that one when it is delivered (`READY`).  Each has a
message type of its own, with the fields of `NicMsg` first, and handlers of its own; they end in the
same way: `deliver` for `READY` and `localEvent` for `START`.
-/

namespace CodesSim

open CodesMapping Function

/-- The fields of the messages of all three networks, and the memory behind the message, which
holds the remote payload and then the local one. -/
structure NicMsg where
  (srcGid srcMnLp finalDestGid destMnLp : Lpid)
  netMsgSizeBytes : UInt64
  eventSizeBytes : ℤ
  localEventSizeBytes : ℤ
  category : String
  eventRc : ℤ
  isPull : Bool
  pullSize : UInt64
  edata : Mem

/-- The types of the events: `*_MSG_START` and `*_MSG_READY`. -/
inductive NicEventType where
  | start
  | ready
  deriving DecidableEq

/-- The surroundings of a NIC. -/
structure NicCtx where
  env : EventCtx
  /-- The id of the LP. -/
  gid : Lpid
  /-- What `tw_event_new` finds in the event it hands out. -/
  fresh : BaseMsg

/-- What a handler sends. -/
inductive NicOut (μ : Type) where
  /-- A message of the network to another NIC. -/
  | nic (dest : Lpid) (offset : STime) (type : NicEventType) (m : μ)
  /-- A `MN_BASE_NEW_MSG` to another NIC, for its receive queue. -/
  | recvMsg (dest : Lpid) (offset : STime) (m : BaseMsg)
  /-- A `MN_BASE_SCHED_NEXT` to the NIC itself. -/
  | idle (offset : STime) (isRecvQueue : Bool)
  /-- A payload or the request of a pull. -/
  | sent (s : Sent)

/-- The outcome of a handler: the LP, the globals of model-net with the latencies drawn, the message
as the handler leaves it and what is sent. -/
structure NicResult (σ μ : Type) where
  state : σ
  globals : MsgGlobals
  msg : μ
  out : List (NicOut μ)

/-- An event for a NIC: when it is handled, in which globals, and the memory the handler finds for
the event it sends. -/
structure NicCall (μ : Type) where
  now : STime
  globals : MsgGlobals
  fresh : BaseMsg
  type : NicEventType
  msg : μ

/-- The outcome of a reverse handler. -/
structure NicUndone (σ : Type) where
  state : σ
  globals : MsgGlobals

/-- The memory behind a message with the remote payload of another. -/
def NicMsg.forward (c : NicCtx) (m : NicMsg) : Mem :=
  c.fresh.data.write 0 (m.edata.read 0 m.eventSizeBytes.toNat)

/-- `rate_to_ns`: MiB/s and bytes to ns. -/
def rateToNs (bytes : UInt64) (mbps : STime) : STime :=
  bytes.toNat / (1024 * 1024) / mbps * 1000 * 1000 * 1000

/-- The latency that `codes_local_latency` draws for an LP. -/
def localLatency (c : NicCtx) (g : MsgGlobals) : STime := c.env.latency c.gid (g.draws c.gid)

/-- `codes_local_latency_reverse` was called `n` times for an LP. -/
def MsgGlobals.undraw (g : MsgGlobals) (lp : Lpid) (n : ℕ) : MsgGlobals :=
  { g with draws := update g.draws lp (g.draws lp - n) }

/-- The size of an event with its payloads. -/
def NicMsg.totalEventSize (c : NicCtx) (m : NicMsg) : ℤ :=
  c.env.wrapMsgSz.toNat + m.eventSizeBytes + m.localEventSizeBytes

/-- The arguments of the `model_net_event_mctx` that answers a pull. -/
def NicMsg.reply (c : NicCtx) (netId : NetId) (now offset : STime) (m : NicMsg) : EventArgs where
  netId := netId
  category := m.category
  finalDestLp := m.srcGid
  messageSize := m.pullSize
  offset := offset
  remoteEventSize := m.eventSizeBytes
  remoteEvent := some m.edata
  selfEventSize := 0
  selfEvent := none
  sender := c.gid
  now := now
  event := c.fresh

/-- The end of the `READY` handlers: a pull is answered, and any other payload goes to the final
destination, `recvQueueTime` from now.  The first component is `event_rc`. -/
def deliver {μ : Type} (c : NicCtx) (netId : NetId) (g : MsgGlobals) (m : NicMsg)
    (now recvQueueTime : STime) : Option (ℤ × MsgGlobals × List (NicOut μ)) :=
  if m.eventSizeBytes = 0 then some (m.eventRc, g, [])
  else if m.isPull then
    match modelNetEventMctx c.env g (.setGlobalDirect c.gid) (.setGlobalDirect m.srcMnLp)
      (m.reply c netId now recvQueueTime) with
    | .error _ => none
    | .ok r => some (r.ret, r.globals, r.sent.map .sent)
  else
    some (m.eventRc, g, [.sent
      (.payload m.finalDestGid recvQueueTime (m.edata.read 0 m.eventSizeBytes.toNat))])

/-- The end of the reverse `READY` handlers. -/
def deliverRc (c : NicCtx) (g : MsgGlobals) (m : NicMsg) : MsgGlobals :=
  if m.eventSizeBytes ≠ 0 ∧ m.isPull then g.undraw c.gid m.eventRc.toNat else g

/-- The end of the `START` handlers: the local payload goes to the sender. -/
def localEvent {μ : Type} (c : NicCtx) (g : MsgGlobals) (m : NicMsg) (sendQueueTime : STime) :
    MsgGlobals × List (NicOut μ) :=
  if m.localEventSizeBytes > 0 then
    (g.draw c.gid, [.sent (.payload m.srcGid (sendQueueTime + localLatency c g)
      (m.edata.read m.eventSizeBytes.toNat m.localEventSizeBytes.toNat))])
  else (g, [])

/-- What the reverse `START` handlers take back of it. -/
def localEventRc (c : NicCtx) (g : MsgGlobals) (m : NicMsg) : MsgGlobals :=
  if m.localEventSizeBytes > 0 then g.undraw c.gid 1 else g

/-! ### Draws -/

variable {μ : Type} {c : NicCtx} {g : MsgGlobals} {m : NicMsg}

@[simp] theorem MsgGlobals.draws_draw (g : MsgGlobals) (lp : Lpid) :
    (g.draw lp).draws = update g.draws lp (g.draws lp + 1) := rfl

@[simp] theorem MsgGlobals.draws_undraw (g : MsgGlobals) (lp : Lpid) (n : ℕ) :
    (g.undraw lp n).draws = update g.draws lp (g.draws lp - n) := rfl

theorem eventImplBase_draws {c : EventCtx} {sendMapCtx recvMapCtx : Mctx} {isPull : Bool}
    {a : EventArgs} {r : EventResult}
    (h : eventImplBase c g sendMapCtx recvMapCtx isPull a = .ok r) :
    r.ret = 1 ∧ r.globals.draws = (g.draw a.sender).draws := by
  obtain ⟨-, src, dest, -, ⟨-, rfl⟩ | ⟨-, appId, -, rfl⟩⟩ :=
    eventImplBase_ok (b := ⟨(sendMapCtx, recvMapCtx), isPull, a⟩) h
  · refine ⟨rfl, ?_⟩
    rw [noopEvent]
    dsimp only
    split_ifs <;> rfl
  · refine ⟨rfl, ?_⟩
    rw [networkEvent]
    dsimp only
    split_ifs <;> rfl

theorem deliver_draws {netId : NetId} {now recvQueueTime : STime} {rc : ℤ} {g' : MsgGlobals}
    {out : List (NicOut μ)} (h : deliver c netId g m now recvQueueTime = some (rc, g', out)) :
    g'.draws = update g.draws c.gid
      (g.draws c.gid + if m.eventSizeBytes ≠ 0 ∧ m.isPull then rc.toNat else 0) := by
  rw [deliver] at h
  split_ifs at h with hsize hpull
  · obtain ⟨-, rfl, -⟩ := by simpa using h
    simp [hsize]
  · cases hcall : modelNetEventMctx c.env g (.setGlobalDirect c.gid) (.setGlobalDirect m.srcMnLp)
      (m.reply c netId now recvQueueTime) with
    | error e => rw [hcall] at h; cases h
    | ok r =>
      rw [hcall] at h
      obtain ⟨rfl, rfl, -⟩ : r.ret = rc ∧ r.globals = g' ∧ r.sent.map .sent = out := by
        simpa using h
      obtain ⟨hret, hdraws⟩ := eventImplBase_draws hcall
      rw [if_pos ⟨hsize, hpull⟩, hdraws, hret]
      rfl
  · obtain ⟨-, rfl, -⟩ := by simpa using h
    simp [hpull]

theorem deliverRc_draws : (deliverRc c g m).draws = update g.draws c.gid
    (g.draws c.gid - if m.eventSizeBytes ≠ 0 ∧ m.isPull then m.eventRc.toNat else 0) := by
  rw [deliverRc]
  split_ifs
  · rfl
  · simp

theorem localEvent_draws (sendQueueTime : STime) :
    (localEvent (μ := μ) c g m sendQueueTime).1.draws = update g.draws c.gid
      (g.draws c.gid + if m.localEventSizeBytes > 0 then 1 else 0) := by
  rw [localEvent]
  split_ifs
  · rfl
  · simp

theorem localEventRc_draws : (localEventRc c g m).draws = update g.draws c.gid
    (g.draws c.gid - if m.localEventSizeBytes > 0 then 1 else 0) := by
  rw [localEventRc]
  split_ifs
  · rfl
  · simp

end CodesSim
