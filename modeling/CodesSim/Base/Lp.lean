import CodesSim.Sched.Reverse

/-!
# The model-net base LP

The LP that stands in front of every network model (`model-net-lp.c`).  It accepts messages
(`MN_BASE_NEW_MSG`), keeps them in one scheduler for each injection queue and one for received
messages, and runs a scheduling loop for each of them: `MN_BASE_SCHED_NEXT` asks the scheduler for
the next packet.  A loop flag says whether the loop of a queue is running.

* A new message takes one of three paths: both ends are on this NIC (`sameNic`), the message waits
  for its turn on the NIC (`queueReq`), or it goes to a scheduler (`toSched`), which starts the
  loop of its queue if that is not running.
* `baseEvent` is the event handler, `baseEventRc` its reverse; both return `none` where the source
  aborts or leaves an array.
* What the network model behind the LP does to its own state is not modelled: an event is given
  the time `poffset` its packet callback returns, and the calls are among the effects.
* The latencies drawn by `codes_local_latency` are a stream, and the state counts the draws.
-/

namespace CodesSim

/-- The parameters of the base LP (`model_net_base_params`). -/
structure BaseParams where
  schedParams : SchedCfg
  packetSize : UInt64
  /-- Number of injection queues. -/
  numQueues : ℕ
  nicSeqDelay : STime
  nodeCopyQueues : ℕ
  deriving DecidableEq

/-- A queue of the LP: the receive queue or an injection queue. -/
inductive Lane where
  | recv
  | send (q : ℕ)
  deriving DecidableEq

/-- The state of the base LP (`model_net_base_state`), with the number of latencies drawn. -/
structure BaseState where
  netId : NetId
  nicsPerRouter : ℕ
  /-- Whether the scheduling loop of an injection queue is running. -/
  inSchedSendLoop : List ℕ
  inSchedRecvLoop : ℕ
  msgId : UInt64
  schedSend : List Sched
  schedRecv : Sched
  params : BaseParams
  nextAvailableTime : STime
  nodeCopyNextAvailableTime : List STime
  draws : ℕ
  deriving DecidableEq

/-- The part of an event that belongs to the base LP (`model_net_base_msg`) and the memory behind
it (`m + 1`), which holds the payloads. -/
structure BaseMsg where
  req : Request
  isFromRemote : Bool
  isQueueReq : Bool
  saveTs : STime
  schedParams : SchedParams
  rc : SchedRc
  createdInSurrogate : Bool
  data : Mem

/-- The bits of `tw_bf` the handlers use. -/
structure BaseBf where
  /-- The scheduling loop is finished. -/
  c0 : Bool
  /-- A message number was given. -/
  c30 : Bool
  /-- The scheduling loop was started. -/
  c31 : Bool

/-- The two kinds of events handled here. -/
inductive BaseEventType where
  | newMsg
  | schedNext
  deriving DecidableEq

/-- What the handlers do besides changing the state. -/
inductive BaseOut where
  /-- A payload sent to an LP. -/
  | payload (dest : Lpid) (offset : STime) (bytes : List UInt8)
  /-- The message sent to this LP again. -/
  | newMsg (offset : STime) (m : BaseMsg)
  /-- A `MN_BASE_SCHED_NEXT` sent to this LP; only these two fields of the event are set. -/
  | schedNext (offset : STime) (isFromRemote : Bool) (queueOffset : ℕ)
  /-- A call of the network method. -/
  | call (c : MethodCall)

/-- The surroundings of a base LP. -/
structure BaseCtx where
  conf : LpConf
  /-- The id of the LP. -/
  gid : Lpid
  /-- `codes_cn_delay`. -/
  cnDelay : STime
  /-- The latencies `codes_local_latency` draws. -/
  latency : ℕ → STime
  isFreezingOn : Bool

/-- The numbers of servers that `handle_new_msg` works out at the first message of a run and keeps
in static variables. -/
structure Servers where
  perNode : ℕ
  perNodeQueue : ℕ

/-- The outcome of an event: the new state, and the event and its bit field as they were left. -/
structure BaseResult where
  state : BaseState
  msg : BaseMsg
  bf : BaseBf
  outs : List BaseOut

/-! ### Queues and loop flags -/

/-- The queue an event is for. -/
def BaseMsg.lane (m : BaseMsg) : Lane := if m.isFromRemote then .recv else .send m.req.queueOffset

namespace BaseState

/-- The scheduler of a queue. -/
def sched? (ns : BaseState) : Lane → Option Sched
  | .recv => some ns.schedRecv
  | .send q => ns.schedSend[q]?

/-- Replace the scheduler of a queue. -/
def setSched (ns : BaseState) : Lane → Sched → BaseState
  | .recv, s => { ns with schedRecv := s }
  | .send q, s => { ns with schedSend := ns.schedSend.set q s }

/-- The loop flag of a queue. -/
def loop? (ns : BaseState) : Lane → Option ℕ
  | .recv => some ns.inSchedRecvLoop
  | .send q => ns.inSchedSendLoop[q]?

/-- Set the loop flag of a queue. -/
def setLoop (ns : BaseState) : Lane → ℕ → BaseState
  | .recv, f => { ns with inSchedRecvLoop := f }
  | .send q, f => { ns with inSchedSendLoop := ns.inSchedSendLoop.set q f }

/-- `codes_local_latency` was called. -/
def draw (ns : BaseState) : BaseState := { ns with draws := ns.draws + 1 }

/-- `codes_local_latency_reverse`. -/
def undraw (ns : BaseState) : BaseState := { ns with draws := ns.draws - 1 }

/-- A message number was taken. -/
def takeMsgId (ns : BaseState) : BaseState := { ns with msgId := ns.msgId + 1 }

/-- A message number was given back. -/
def returnMsgId (ns : BaseState) : BaseState := { ns with msgId := ns.msgId - 1 }

/-- The network leaves it to this LP to go on with the loop. -/
def Reschedules (ns : BaseState) : Prop := ns.netId = .simplep2p ∨ ns.netId = .torus

instance (ns : BaseState) : Decidable ns.Reschedules := inferInstanceAs (Decidable (_ ∨ _))

/-- `model_net_base_lp_init`.  The flags are zero from the start, as the state is. -/
def init (netId : NetId) (nicsPerRouter : ℕ) (params : BaseParams) (draws : ℕ) : BaseState where
  netId := netId
  nicsPerRouter := nicsPerRouter
  inSchedSendLoop := List.replicate params.numQueues 0
  inSchedRecvLoop := 0
  msgId := 0
  schedSend := List.replicate params.numQueues (Sched.init params.schedParams false)
  schedRecv := Sched.init params.schedParams true
  params := params
  nextAvailableTime := 0
  nodeCopyNextAvailableTime := List.replicate params.nodeCopyQueues 0
  draws := draws

end BaseState

/-! ### The scheduling loop -/

/-- `handle_sched_next`. -/
def handleSchedNext (c : BaseCtx) (ns : BaseState) (b : BaseBf) (m : BaseMsg) (poffset : STime) :
    Option BaseResult := do
  let ss ← ns.sched? m.lane
  let _ ← ns.loop? m.lane
  let o := ss.next m.data m.rc
  let ns' := ns.setSched m.lane o.state
  let m' := { m with rc := o.rc, data := o.save }
  let calls := o.call.toList.map .call
  if o.ret = -1 then
    some ⟨ns'.setLoop m.lane 0, m', { b with c0 := true }, calls⟩
  else if ns.Reschedules then
    some ⟨ns'.draw, m', b,
      calls ++ [.schedNext (poffset + c.latency ns.draws) m.isFromRemote m.req.queueOffset]⟩
  else
    some ⟨ns', m', b, calls⟩

/-- `handle_sched_next_rc`. -/
def handleSchedNextRc (ns : BaseState) (b : BaseBf) (m : BaseMsg) : Option BaseState := do
  let ss ← ns.sched? m.lane
  let _ ← ns.loop? m.lane
  let ss' ← ss.nextRc m.data m.rc
  let ns' := ns.setSched m.lane ss'
  if b.c0 then some (ns'.setLoop m.lane 1)
  else if ns.Reschedules then some ns'.undraw
  else some ns'

/-! ### New messages -/

/-- The offset of an LP inside its type, an array index in what follows. -/
def lpOffset (c : BaseCtx) (lp : Lpid) : Option ℕ :=
  match CodesMapping.getLpInfo2 c.conf lp with
  | .ok i => if 0 ≤ i.offset then some i.offset.toNat else none
  | .error _ => none

/-- The static variables of `handle_new_msg`, worked out from the sender of the first message.
A division by zero aborts. -/
def Servers.get (c : BaseCtx) (ns : BaseState) (srcLp : Lpid) : Option Servers → Option Servers
  | some sv => some sv
  | none =>
    match CodesMapping.getLpInfo2 c.conf srcLp with
    | .error _ => none
    | .ok i =>
      let numServers := CodesMapping.getLpCount c.conf i.groupName i.lpTypeName
      if ns.params.numQueues = 0 ∨ ns.nicsPerRouter = 0 ∨ ns.params.nodeCopyQueues = 0 then none
      else some {
        perNode := max 1 (numServers / ns.params.numQueues)
        perNodeQueue := max 1 (numServers / ns.nicsPerRouter / ns.params.nodeCopyQueues) }

/-- The copy queue of a message between two LPs of this NIC. -/
def copyQueue (c : BaseCtx) (sv : Servers) (nicsPerRouter : ℕ) (srcLp : Lpid) : Option ℕ :=
  (lpOffset c srcLp).bind fun offset =>
    if nicsPerRouter = 0 then none else some (offset / nicsPerRouter / sv.perNodeQueue)

/-- The remote payload of a message, from the memory behind it. -/
def remoteBytes (m : BaseMsg) : List UInt8 := m.data.read 0 m.req.remoteEventSize.toNat

/-- Where the self payload of a message starts. -/
def selfOffset (m : BaseMsg) : ℕ := m.req.remoteEventSize.toNat

/-- The self payload of a message. -/
def selfBytes (m : BaseMsg) : List UInt8 := m.data.read (selfOffset m) m.req.selfEventSize.toNat

/-- `handle_new_msg` for a message between two LPs of this NIC: it is copied. -/
def sameNic (c : BaseCtx) (sv : Servers) (ns : BaseState) (b : BaseBf) (m : BaseMsg)
    (now : STime) : Option BaseResult := do
  let queue ← copyQueue c sv ns.nicsPerRouter m.req.srcLp
  let available ← ns.nodeCopyNextAvailableTime[queue]?
  let expTime := max available now + m.req.msgSize.toNat * c.cnDelay - now
  let delay := c.latency ns.draws
  let toRemote := m.req.remoteEventSize > 0
  let remoteAt := expTime + delay
  let selfAt := (if toRemote then remoteAt else expTime) + delay
  some
    { state := { ns.draw with
        nodeCopyNextAvailableTime := ns.nodeCopyNextAvailableTime.set queue (now + expTime) }
      msg := { m with saveTs := available }
      bf := b
      outs := (if toRemote then [.payload m.req.finalDestLp remoteAt (remoteBytes m)] else []) ++
        if m.req.selfEventSize > 0 then [.payload m.req.srcLp selfAt (selfBytes m)] else [] }

/-- `handle_new_msg` for a message that has to wait for its turn on the NIC: it is sent again. -/
def queueReq (c : BaseCtx) (ns : BaseState) (b : BaseBf) (m : BaseMsg) (now : STime) :
    BaseResult :=
  let expTime := max ns.nextAvailableTime now + (ns.params.nicSeqDelay + c.latency ns.draws)
  let m' := { m with saveTs := ns.nextAvailableTime }
  let payload : Mem := fun _ => 0
  let payload := if m.req.remoteEventSize > 0 then payload.write 0 (remoteBytes m) else payload
  let payload := if m.req.selfEventSize > 0 then payload.write (selfOffset m) (selfBytes m)
    else payload
  { state := { ns.draw with nextAvailableTime := expTime }
    msg := m'
    bf := b
    outs := [.newMsg (expTime - now) { m' with isQueueReq := false, data := payload }] }

/-- The injection queue of a message. -/
def queueOffset (c : BaseCtx) (sv : Servers) (ns : BaseState) (m : BaseMsg) : Option ℕ :=
  if !m.isFromRemote && ns.params.numQueues != 1 then
    (lpOffset c m.req.srcLp).bind fun offset =>
      if sv.perNode = 0 ∨ ns.params.numQueues = 0 then none
      else some (offset / sv.perNode % ns.params.numQueues)
  else some 0

/-- A message that was put into a scheduler. -/
structure Enqueued where
  state : BaseState
  msg : BaseMsg
  bf : BaseBf
  /-- The loop flag of its queue. -/
  inLoop : ℕ

/-- `handle_new_msg` for a message that goes to a scheduler, up to the loop. -/
def enqueue (c : BaseCtx) (sv : Servers) (ns : BaseState) (b : BaseBf) (m : BaseMsg)
    (now : STime) : Option Enqueued := do
  let queue ← queueOffset c sv ns m
  let r := { m.req with
    msgNewMnEvent := now
    packetSize := ns.params.packetSize
    msgId := ns.msgId
    queueOffset := queue }
  let m := { m with req := r }
  let ns := ns.takeMsgId
  let b := { b with c30 := true }
  let ss ← ns.sched? m.lane
  let inLoop ← ns.loop? m.lane
  let (ss', rc) ← ss.add r m.schedParams r.remoteEventSize m.data r.selfEventSize
    (fun i => m.data (selfOffset m + i)) m.rc
  some ⟨ns.setSched m.lane ss', { m with rc := rc }, b, inLoop⟩

/-- The first step of the loop of a queue, made by the message that starts it. -/
def startLoop (c : BaseCtx) (q : Enqueued) (poffset : STime) : Option BaseResult :=
  handleSchedNext c (q.state.setLoop q.msg.lane 1) { q.bf with c31 := true } q.msg poffset

/-- `handle_new_msg` for a message that goes to a scheduler.  The loop of its queue is started
with this event if it is not running, and must then be running still. -/
def toSched (c : BaseCtx) (sv : Servers) (ns : BaseState) (b : BaseBf) (m : BaseMsg)
    (now poffset : STime) : Option BaseResult := do
  let q ← enqueue c sv ns b m now
  if q.inLoop = 0 then do
    let res ← startLoop c q poffset
    if res.state.loop? q.msg.lane = some 0 then none else some res
  else some ⟨q.state, q.msg, q.bf, []⟩

/-- `handle_new_msg`, with the values of its static variables. -/
def handleNewMsg (c : BaseCtx) (sv : Servers) (ns : BaseState) (b : BaseBf) (m : BaseMsg)
    (now poffset : STime) : Option BaseResult :=
  if c.gid = m.req.destMnLp then sameNic c sv ns b m now
  else if m.isQueueReq then some (queueReq c ns b m now)
  else toSched c sv ns b m now poffset

/-- `handle_new_msg_rc` for a message that was copied. -/
def sameNicRc (c : BaseCtx) (sv : Servers) (ns : BaseState) (m : BaseMsg) : Option BaseState := do
  let queue ← copyQueue c sv ns.nicsPerRouter m.req.srcLp
  let _ ← ns.nodeCopyNextAvailableTime[queue]?
  some { ns.undraw with
    nodeCopyNextAvailableTime := ns.nodeCopyNextAvailableTime.set queue m.saveTs }

/-- `handle_new_msg_rc` for a message that went to a scheduler. -/
def toSchedRc (ns : BaseState) (b : BaseBf) (m : BaseMsg) : Option BaseState := do
  let ns ← if b.c31 then (handleSchedNextRc ns b m).map fun ns' => ns'.setLoop m.lane 0
    else some ns
  let ss ← ns.sched? m.lane
  let ss' ← ss.addRc m.rc
  let ns := ns.setSched m.lane ss'
  some (if b.c30 then ns.returnMsgId else ns)

/-- `handle_new_msg_rc`. -/
def handleNewMsgRc (c : BaseCtx) (sv : Servers) (ns : BaseState) (b : BaseBf) (m : BaseMsg) :
    Option BaseState :=
  if c.gid = m.req.destMnLp then sameNicRc c sv ns m
  else if m.isQueueReq then some { ns.undraw with nextAvailableTime := m.saveTs }
  else toSchedRc ns b m

/-! ### The event handler -/

/-- An event of one of the two kinds. -/
structure BaseEvent where
  type : BaseEventType
  msg : BaseMsg
  /-- When the event happens. -/
  now : STime
  /-- What the packet callback of the network returns, if it is called. -/
  poffset : STime

/-- The event is dropped: a wake-up that was created while the network was frozen. -/
def BaseEvent.Dropped (c : BaseCtx) (e : BaseEvent) : Prop :=
  c.isFreezingOn = false ∧ e.type = .schedNext ∧ e.msg.createdInSurrogate = true

instance (c : BaseCtx) (e : BaseEvent) : Decidable (e.Dropped c) :=
  inferInstanceAs (Decidable (_ ∧ _ ∧ _))

/-- `model_net_base_event`; the bit field is cleared first.  The static variables are returned as
they are after the event. -/
def baseEvent (c : BaseCtx) (sv : Option Servers) (ns : BaseState) (e : BaseEvent) :
    Option (Option Servers × BaseResult) :=
  let b : BaseBf := ⟨false, false, false⟩
  if e.Dropped c then some (sv, ⟨ns, e.msg, b, []⟩)
  else
    match e.type with
    | .newMsg => do
      let sv' ← Servers.get c ns e.msg.req.srcLp sv
      let res ← handleNewMsg c sv' ns b e.msg e.now e.poffset
      some (some sv', res)
    | .schedNext => (handleSchedNext c ns b e.msg e.poffset).map fun res => (sv, res)

/-- `model_net_base_event_rc`, on the event and the bit field as the handler left them. -/
def baseEventRc (c : BaseCtx) (sv : Option Servers) (ns : BaseState) (e : BaseEvent)
    (b : BaseBf) : Option BaseState :=
  if e.Dropped c then some ns
  else
    match e.type with
    | .newMsg => sv.bind fun sv => handleNewMsgRc c sv ns b e.msg
    | .schedNext => handleSchedNextRc ns b e.msg

end CodesSim
