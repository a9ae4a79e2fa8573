import CodesSim.Base.Lp
import CodesSim.Lib.Outcome
import CodesSim.Mapping.Context
import CodesSim.Mapping.Relative

/-!
# The calls of model-net

An LP hands a message to model-net with one of the `model_net_*event` calls (`model-net.c`).  A call
finds the model-net LPs of both ends and sends a request to the first; a short message between two
LPs behind the same one goes out directly.  Per-message parameters are set by calls before it and
wait in globals of the translation unit until an event call takes them.

* `MsgGlobals` are these globals, `eventImplBase` is the common body of the event calls and
  `MnCall.run` a call of the interface.
* `params_consumed_iff` says over which histories of calls the parameters reach exactly the next
  message: the direct path neither applies nor clears them.
-/

namespace CodesSim

open CodesMapping

/-- The names of the networks in the configuration (`model_net_lp_config_names`). -/
def NetId.lpConfigName : NetId → String
  | simplenet => "modelnet_simplenet"
  | simplep2p => "modelnet_simplep2p"
  | torus => "modelnet_torus"
  | slimfly => "modelnet_slimfly"
  | slimflyRouter => "modelnet_slimfly_router"
  | fattree => "modelnet_fattree"
  | dragonfly => "modelnet_dragonfly"
  | dragonflyRouter => "modelnet_dragonfly_router"
  | dragonflyCustom => "modelnet_dragonfly_custom"
  | dragonflyCustomRouter => "modelnet_dragonfly_custom_router"
  | loggp => "modelnet_loggp"
  | expressMesh => "modelnet_express_mesh"
  | expressMeshRouter => "modelnet_express_mesh_router"
  | dragonflyPlus => "modelnet_dragonfly_plus"
  | dragonflyPlusRouter => "modelnet_dragonfly_plus_router"
  | dragonflyDally => "modelnet_dragonfly_dally"
  | dragonflyDallyRouter => "modelnet_dragonfly_dally_router"
  | congestionController => "congestion_controller"

/-- The surroundings of the calls. -/
structure EventCtx where
  conf : LpConf
  /-- `codes_cn_delay`. -/
  cnDelay : STime
  /-- `codes_node_eager_limit`. -/
  nodeEagerLimit : ℤ
  /-- `codes_noop_bypass`. -/
  noopBypass : Bool
  /-- The latencies `codes_local_latency` draws for an LP. -/
  latency : Lpid → ℕ → STime
  /-- The size of events, `g_tw_msg_sz`. -/
  msgSz : UInt64
  /-- `sizeof(model_net_wrap_msg)`. -/
  wrapMsgSz : UInt64
  /-- The job of a rank, if the congestion controller knows a job map. -/
  jobOf : Option (ℤ → ℤ)

/-- The globals of the calls, and how many latencies each LP has drawn. -/
structure MsgGlobals where
  /-- `is_msg_params_set`, indexed by `msg_param_type`. -/
  isMsgParamsSet : Vector Bool 2
  schedParams : SchedParams
  startTimeParam : STime
  /-- `mn_in_sequence`. -/
  mnInSequence : Bool
  /-- `mn_msg_offset`. -/
  mnMsgOffset : STime
  draws : Lpid → ℕ

/-- The flags are cleared when model-net is configured. -/
def MsgGlobals.configure (g : MsgGlobals) : MsgGlobals :=
  { g with isMsgParamsSet := Vector.replicate 2 false }

/-- `MN_START_SEQ`. -/
def MsgGlobals.startSeq (g : MsgGlobals) : MsgGlobals :=
  { g with mnInSequence := true, mnMsgOffset := 0 }

/-- `MN_END_SEQ`. -/
def MsgGlobals.endSeq (g : MsgGlobals) : MsgGlobals := { g with mnInSequence := false }

/-- `codes_local_latency` was called for an LP. -/
def MsgGlobals.draw (g : MsgGlobals) (lp : Lpid) : MsgGlobals :=
  { g with draws := Function.update g.draws lp (g.draws lp + 1) }

/-! ### Parameters -/

/-- The arguments of `model_net_set_msg_param`: the type, the sub-type and the value pointed to. -/
inductive MsgParam where
  /-- `MN_MSG_PARAM_SCHED`. -/
  | sched (subType prio : ℤ)
  /-- `MN_MSG_PARAM_START_TIME`. -/
  | startTime (subType : ℤ) (val : STime)
  | other (type : ℤ)

/-- `model_net_set_msg_param`; there is one sub-type of each type, the number 0. -/
def setMsgParam (g : MsgGlobals) : MsgParam → Except String MsgGlobals
  | .sched subType prio =>
    if subType = 0 then
      .ok { g with isMsgParamsSet := g.isMsgParamsSet.set 0 true, schedParams := ⟨prio⟩ }
    else .error "unknown or unsupported MN_MSG_PARAM_SCHED parameter type"
  | .startTime subType val =>
    if subType = 0 then
      .ok { g with isMsgParamsSet := g.isMsgParamsSet.set 1 true, startTimeParam := val }
    else .error "unknown or unsupported MN_MSG_PARAM_START_TIME parameter type"
  | .other _ => .error "unknown or unsupported msg_param_type"

/-! ### Events -/

/-- The arguments the event calls share. -/
structure EventArgs where
  netId : NetId
  category : String
  finalDestLp : Lpid
  messageSize : UInt64
  offset : STime
  remoteEventSize : ℤ
  remoteEvent : Option Mem
  selfEventSize : ℤ
  selfEvent : Option Mem
  /-- The id of the sender. -/
  sender : Lpid
  /-- The time of the event the sender handles. -/
  now : STime
  /-- What `tw_event_new` finds in the event it hands out. -/
  event : BaseMsg

/-- An event sent by a call. -/
inductive Sent where
  /-- A payload. -/
  | payload (dest : Lpid) (offset : STime) (bytes : List UInt8)
  /-- A `MN_BASE_NEW_MSG` for a model-net LP. -/
  | newMsg (dest : Lpid) (offset : STime) (m : BaseMsg)

/-- The outcome of an event call: its return value, the number of latencies drawn, the globals and
the events sent. -/
structure EventResult where
  ret : ℤ
  globals : MsgGlobals
  sent : List Sent

/-- The bytes of a payload. -/
def payloadBytes (size : ℤ) (src : Option Mem) : List UInt8 :=
  match src with
  | some m => m.read 0 size.toNat
  | none => []

/-- `model_net_noop_event`: the payloads go out directly. -/
def noopEvent (c : EventCtx) (g : MsgGlobals) (isPull : Bool) (a : EventArgs) : EventResult :=
  let start := if g.mnInSequence then g.mnMsgOffset else 0
  let delay := c.latency a.sender (g.draws a.sender)
  let sendTime := a.messageSize.toNat * c.cnDelay
  let hasSelf := a.selfEventSize ≠ 0 ∧ a.selfEvent.isSome
  let hasRemote := a.remoteEventSize ≠ 0 ∧ a.remoteEvent.isSome
  let selfAt := if hasSelf then start + delay else start
  let remoteAt := if hasRemote then selfAt + delay else selfAt
  let g' := g.draw a.sender
  { ret := 1
    globals := if g.mnInSequence then { g' with mnMsgOffset := g.mnMsgOffset + remoteAt } else g'
    sent :=
      (if hasSelf then
        [.payload a.sender (selfAt + a.offset + sendTime)
          (payloadBytes a.selfEventSize a.selfEvent)]
      else []) ++
      if hasRemote then
        -- the remote event of a pull goes to the sender itself
        [.payload (if isPull then a.sender else a.finalDestLp) (remoteAt + a.offset + sendTime)
          (payloadBytes a.remoteEventSize a.remoteEvent)]
      else [] }

/-- Cut off a category to the length of its field (`strncpy`). -/
def cutCategory (s : String) : String := String.ofList (s.toList.take 15)

/-- `model_net_sched_set_default_params`. -/
def defaultParams : SchedParams := ⟨-1⟩

/-- The size of the request of a pull (`PULL_MSG_SIZE`). -/
def pullMsgSize : UInt64 := 128

/-- The text of the failure for events that are too big. -/
def sizeError (c : EventCtx) (a : EventArgs) : String :=
  "Error: model_net trying to transmit an event of size " ++
    toString (wrapInt (a.remoteEventSize + a.selfEventSize + c.wrapMsgSz.toNat)) ++
    " but ROSS is configured for events of size " ++ toString c.msgSz.toNat ++ "\n"

/-- The event does not fit into an event of the simulator; the sum is one of 64-bit words. -/
def tooBig (c : EventCtx) (a : EventArgs) : Bool :=
  UInt64.ofInt (wrapInt (a.remoteEventSize + a.selfEventSize)) + c.wrapMsgSz > c.msgSz

/-- `model_net_find_local_device_mctx`. -/
def findLocalDeviceMctx (c : EventCtx) (netId : NetId) (mapCtx : Mctx) (lp : Lpid) :
    Except String Lpid :=
  mapCtx.toLpid c.conf netId.lpConfigName lp

/-- The test for the direct path. -/
def isNoop (c : EventCtx) (srcMnLp destMnLp : Lpid) (messageSize : UInt64) : Bool :=
  srcMnLp == destMnLp && messageSize < UInt64.ofInt c.nodeEagerLimit && !c.noopBypass

/-- The request of a message, in the memory of the new event.  The priority is looked up under
the number of its sub-type, which is the one of the type too. -/
def newMsg (g : MsgGlobals) (destMnLp : Lpid) (isPull : Bool) (appId : ℤ) (a : EventArgs) :
    BaseMsg :=
  let req :=
    { a.event.req with
      finalDestLp := a.finalDestLp
      destMnLp := destMnLp
      srcLp := a.sender
      isPull := isPull
      msgSize := if isPull then pullMsgSize else a.messageSize
      pullSize := if isPull then a.messageSize else 0
      netId := a.netId
      remoteEventSize := a.remoteEventSize
      selfEventSize := a.selfEventSize
      category := cutCategory a.category
      msgStartTime := if g.isMsgParamsSet[1] then g.startTimeParam else a.now
      appId := appId }
  let data := if a.remoteEventSize > 0 then
      a.event.data.write 0 (payloadBytes a.remoteEventSize a.remoteEvent)
    else a.event.data
  let data := if a.selfEventSize > 0 then
      data.write a.remoteEventSize.toNat (payloadBytes a.selfEventSize a.selfEvent)
    else data
  { a.event with
    req := req
    isFromRemote := false
    isQueueReq := true
    schedParams := if g.isMsgParamsSet[0] then g.schedParams else defaultParams
    data := data }

/-- The job of the sender; without a job map the field keeps what it was. -/
def appIdOf (c : EventCtx) (a : EventArgs) : Except String ℤ :=
  match c.jobOf with
  | none => .ok a.event.req.appId
  | some job =>
    match getLpRelativeId c.conf a.sender false false with
    | .error e => .error e
    | .ok rank => .ok (job rank)

/-- The network path of an event call. -/
def networkEvent (c : EventCtx) (g : MsgGlobals) (srcMnLp destMnLp : Lpid) (isPull : Bool)
    (appId : ℤ) (a : EventArgs) : EventResult :=
  let delay := c.latency a.sender (g.draws a.sender)
  let poffset := if g.mnInSequence then delay + g.mnMsgOffset else delay
  let g' := g.draw a.sender
  let g' := if g.mnInSequence then { g' with mnMsgOffset := g.mnMsgOffset + delay } else g'
  { ret := 1
    -- once the parameters are in the request, the flags are cleared
    globals := { g' with isMsgParamsSet := Vector.replicate 2 false }
    sent := [.newMsg srcMnLp (poffset + a.offset) (newMsg g destMnLp isPull appId a)] }

/-- `model_net_event_impl_base`. -/
def eventImplBase (c : EventCtx) (g : MsgGlobals) (sendMapCtx recvMapCtx : Mctx) (isPull : Bool)
    (a : EventArgs) : Except String EventResult :=
  if tooBig c a then .error (sizeError c a)
  else
    match findLocalDeviceMctx c a.netId sendMapCtx a.sender with
    | .error e => .error e
    | .ok srcMnLp =>
      match findLocalDeviceMctx c a.netId recvMapCtx a.finalDestLp with
      | .error e => .error e
      | .ok destMnLp =>
        if isNoop c srcMnLp destMnLp a.messageSize then .ok (noopEvent c g isPull a)
        else
          match appIdOf c a with
          | .error e => .error e
          | .ok appId => .ok (networkEvent c g srcMnLp destMnLp isPull appId a)

/-- The context for any annotation (`CODES_MCTX_DEFAULT`). -/
def mctxDefault : Mctx := .group .modulo (-1)

/-- `model_net_event`. -/
def modelNetEvent (c : EventCtx) (g : MsgGlobals) (a : EventArgs) : Except String EventResult :=
  eventImplBase c g mctxDefault mctxDefault false a

/-- `model_net_event_annotated`. -/
def modelNetEventAnnotated (c : EventCtx) (g : MsgGlobals) (anno : Option String)
    (a : EventArgs) : Except String EventResult :=
  let mc := Mctx.setGroupModulo c.conf anno false
  eventImplBase c g mc mc false a

/-- `model_net_event_mctx`. -/
def modelNetEventMctx (c : EventCtx) (g : MsgGlobals) (sendMapCtx recvMapCtx : Mctx)
    (a : EventArgs) : Except String EventResult :=
  eventImplBase c g sendMapCtx recvMapCtx false a

/-- A pull has one payload, which comes back to the sender: its self event is the remote event of
the message. -/
def EventArgs.pull (a : EventArgs) : EventArgs :=
  { a with
    remoteEventSize := a.selfEventSize
    remoteEvent := a.selfEvent
    selfEventSize := 0
    selfEvent := none }

/-- `model_net_pull_event`. -/
def modelNetPullEvent (c : EventCtx) (g : MsgGlobals) (a : EventArgs) : Except String EventResult :=
  eventImplBase c g mctxDefault mctxDefault true a.pull

/-- `model_net_pull_event_annotated`. -/
def modelNetPullEventAnnotated (c : EventCtx) (g : MsgGlobals) (anno : Option String)
    (a : EventArgs) : Except String EventResult :=
  let mc := Mctx.setGroupModulo c.conf anno false
  eventImplBase c g mc mc true a.pull

/-- `model_net_pull_event_mctx`. -/
def modelNetPullEventMctx (c : EventCtx) (g : MsgGlobals) (sendMapCtx recvMapCtx : Mctx)
    (a : EventArgs) : Except String EventResult :=
  eventImplBase c g sendMapCtx recvMapCtx true a.pull

/-! ### Histories of calls -/

/-- Which of the event calls is made. -/
inductive EventApi where
  | plain
  | annotated (anno : Option String)
  | mctx (sendMapCtx recvMapCtx : Mctx)

/-- The calls that read or write the globals. -/
inductive MnCall where
  | setMsgParam (p : MsgParam)
  | startSeq
  | endSeq
  | event (api : EventApi) (a : EventArgs)
  | pullEvent (api : EventApi) (a : EventArgs)

/-- An event call. -/
def callEvent (c : EventCtx) (g : MsgGlobals) (a : EventArgs) : EventApi → Except String EventResult
  | .plain => modelNetEvent c g a
  | .annotated anno => modelNetEventAnnotated c g anno a
  | .mctx sendMapCtx recvMapCtx => modelNetEventMctx c g sendMapCtx recvMapCtx a

/-- A pull call. -/
def callPullEvent (c : EventCtx) (g : MsgGlobals) (a : EventArgs) :
    EventApi → Except String EventResult
  | .plain => modelNetPullEvent c g a
  | .annotated anno => modelNetPullEventAnnotated c g anno a
  | .mctx sendMapCtx recvMapCtx => modelNetPullEventMctx c g sendMapCtx recvMapCtx a

/-- One call: the globals it leaves and the events it sends. -/
def MnCall.run (c : EventCtx) (g : MsgGlobals) : MnCall → Except String (MsgGlobals × List Sent)
  | setMsgParam p => (CodesSim.setMsgParam g p).map fun g' => (g', [])
  | startSeq => .ok (g.startSeq, [])
  | endSeq => .ok (g.endSeq, [])
  | event api a => (callEvent c g a api).map fun r => (r.globals, r.sent)
  | pullEvent api a => (callPullEvent c g a api).map fun r => (r.globals, r.sent)

/-- A history of calls; a failure ends the program. -/
def runCalls (c : EventCtx) : MsgGlobals → List MnCall → Except String MsgGlobals
  | g, [] => .ok g
  | g, call :: calls =>
    match call.run c g with
    | .error e => .error e
    | .ok (g', _) => runCalls c g' calls

/-! ### Event calls -/

/-- The contexts of an event call. -/
def EventApi.contexts (c : EventCtx) : EventApi → Mctx × Mctx
  | plain => (mctxDefault, mctxDefault)
  | annotated anno =>
    (.setGroupModulo c.conf anno false, .setGroupModulo c.conf anno false)
  | mctx sendMapCtx recvMapCtx => (sendMapCtx, recvMapCtx)

/-- What an event call hands to the common body: the contexts, the direction and the arguments. -/
structure BaseCall where
  contexts : Mctx × Mctx
  isPull : Bool
  args : EventArgs

/-- The common body behind an event call. -/
def MnCall.base (c : EventCtx) : MnCall → Option BaseCall
  | event api a => some ⟨api.contexts c, false, a⟩
  | pullEvent api a => some ⟨api.contexts c, true, a.pull⟩
  | _ => none

variable {c : EventCtx} {call : MnCall} {b : BaseCall}

/-- **An event call runs the common body.** -/
theorem MnCall.run_base (h : call.base c = some b) (g : MsgGlobals) : call.run c g =
      (eventImplBase c g b.contexts.1 b.contexts.2 b.isPull b.args).map
        fun r => (r.globals, r.sent) := by
  cases call with
  | setMsgParam p => cases h
  | startSeq => cases h
  | endSeq => cases h
  | event api a =>
    obtain rfl := Option.some.inj h
    cases api <;> rfl
  | pullEvent api a =>
    obtain rfl := Option.some.inj h
    cases api <;> rfl

/-- The model-net LPs of both ends, if both are found. -/
def BaseCall.ends (c : EventCtx) (b : BaseCall) : Option (Lpid × Lpid) :=
  match findLocalDeviceMctx c b.args.netId b.contexts.1 b.args.sender,
    findLocalDeviceMctx c b.args.netId b.contexts.2 b.args.finalDestLp with
  | .ok srcMnLp, .ok destMnLp => some (srcMnLp, destMnLp)
  | _, _ => none

/-- The message is short and both ends have one model-net LP. -/
def BaseCall.isNoop (c : EventCtx) (b : BaseCall) : Bool :=
  match b.ends c with
  | some (srcMnLp, destMnLp) => CodesSim.isNoop c srcMnLp destMnLp b.args.messageSize
  | none => false

/-- The call takes the direct path. -/
def MnCall.isNoop (c : EventCtx) (call : MnCall) : Bool :=
  match call.base c with
  | some b => b.isNoop c
  | none => false

/-- The call does not end the program. -/
def MnCall.returns (c : EventCtx) (call : MnCall) : Bool :=
  match call with
  | setMsgParam (.sched subType _) => subType == 0
  | setMsgParam (.startTime subType _) => subType == 0
  | setMsgParam (.other _) => false
  | _ =>
    match call.base c with
    | none => true
    | some b => !tooBig c b.args && (b.ends c).isSome && (b.isNoop c || (appIdOf c b.args).isOk)

variable {g : MsgGlobals}

theorem eventImplBase_ok {r : EventResult}
    (h : eventImplBase c g b.contexts.1 b.contexts.2 b.isPull b.args = .ok r) :
    tooBig c b.args = false ∧ ∃ src dest, b.ends c = some (src, dest) ∧
      ((b.isNoop c = true ∧ r = noopEvent c g b.isPull b.args) ∨
        (b.isNoop c = false ∧ ∃ appId, appIdOf c b.args = .ok appId ∧
          r = networkEvent c g src dest b.isPull appId b.args)) := by
  rw [eventImplBase] at h
  split_ifs at h with hbig
  have hbig : tooBig c b.args = false := by simpa using hbig
  cases hsrc : findLocalDeviceMctx c b.args.netId b.contexts.1 b.args.sender with
  | error e => simp only [hsrc] at h; cases h
  | ok src =>
    cases hdest : findLocalDeviceMctx c b.args.netId b.contexts.2 b.args.finalDestLp with
    | error e => simp only [hsrc, hdest] at h; cases h
    | ok dest =>
      have hends : b.ends c = some (src, dest) := by rw [BaseCall.ends, hsrc, hdest]
      have hnoop : b.isNoop c = isNoop c src dest b.args.messageSize := by
        rw [BaseCall.isNoop, hends]
      simp only [hsrc, hdest, ← hnoop] at h
      refine ⟨hbig, src, dest, hends, ?_⟩
      by_cases hn : b.isNoop c = true
      · rw [if_pos hn] at h
        exact .inl ⟨hn, (Except.ok.inj h).symm⟩
      · rw [if_neg hn] at h
        cases happ : appIdOf c b.args with
        | error e => simp only [happ] at h; cases h
        | ok appId =>
          simp only [happ] at h
          exact .inr ⟨by simpa using hn, appId, rfl, (Except.ok.inj h).symm⟩

theorem eventImplBase_isOk (g : MsgGlobals)
    (hbig : tooBig c b.args = false) (hends : (b.ends c).isSome = true)
    (happ : b.isNoop c = true ∨ (appIdOf c b.args).isOk = true) :
    ∃ r, eventImplBase c g b.contexts.1 b.contexts.2 b.isPull b.args = .ok r := by
  cases hsrc : findLocalDeviceMctx c b.args.netId b.contexts.1 b.args.sender with
  | error e => simp [BaseCall.ends, hsrc] at hends
  | ok src =>
    cases hdest : findLocalDeviceMctx c b.args.netId b.contexts.2 b.args.finalDestLp with
    | error e => simp [BaseCall.ends, hsrc, hdest] at hends
    | ok dest =>
      have hnoop : b.isNoop c = isNoop c src dest b.args.messageSize := by
        rw [BaseCall.isNoop, BaseCall.ends, hsrc, hdest]
      rw [eventImplBase, hbig, if_neg (by simp), hsrc, hdest]
      simp only [← hnoop]
      by_cases hn : b.isNoop c = true
      · exact ⟨_, if_pos hn⟩
      · rw [if_neg hn]
        cases happ' : appIdOf c b.args with
        | error e =>
          rw [happ'] at happ
          cases happ.resolve_left hn
        | ok appId => exact ⟨_, rfl⟩

/-- **Calls return regardless of the globals.** -/
theorem MnCall.run_ok_iff (c : EventCtx) (g : MsgGlobals) (call : MnCall) :
    (∃ r, call.run c g = .ok r) ↔ call.returns c = true := by
  have hevent : ∀ b, call.base c = some b → ((∃ r, call.run c g = .ok r) ↔
      (!tooBig c b.args && (b.ends c).isSome && (b.isNoop c || (appIdOf c b.args).isOk)) =
      true) := by
    intro b hb
    rw [run_base hb]
    simp only [Bool.and_eq_true, Bool.not_eq_true', Bool.or_eq_true]
    constructor
    · rintro ⟨r, hr⟩
      cases himpl : eventImplBase c g b.contexts.1 b.contexts.2 b.isPull b.args with
      | error e => rw [himpl] at hr; cases hr
      | ok r' =>
        obtain ⟨hbig, src, dest, hends, hcase⟩ := eventImplBase_ok himpl
        refine ⟨⟨hbig, by rw [hends]; rfl⟩, ?_⟩
        obtain ⟨hn, -⟩ | ⟨-, appId, happ, -⟩ := hcase
        · exact .inl hn
        · exact .inr (by rw [happ]; rfl)
    · rintro ⟨⟨hbig, hends⟩, happ⟩
      obtain ⟨r, hr⟩ := eventImplBase_isOk g hbig hends happ
      exact ⟨_, by rw [hr]; rfl⟩
  cases call with
  | setMsgParam p =>
    cases p with
    | sched subType prio =>
      by_cases h : subType = 0 <;> simp [run, returns, CodesSim.setMsgParam, h, Except.map]
    | startTime subType val =>
      by_cases h : subType = 0 <;> simp [run, returns, CodesSim.setMsgParam, h, Except.map]
    | other type => simp [run, returns, CodesSim.setMsgParam, Except.map]
  | startSeq => simp [run, returns, base]
  | endSeq => simp [run, returns, base]
  | event api a => exact hevent _ rfl
  | pullEvent api a => exact hevent _ rfl

/-! ### Pending parameters -/

/-- The parameters that wait for a message. -/
structure Pending where
  prio : Option ℤ
  startTime : Option STime

/-- No parameter waits. -/
def Pending.none : Pending := ⟨.none, .none⟩

/-- The parameters that wait in the globals. -/
def MsgGlobals.pending (g : MsgGlobals) : Pending where
  prio := if g.isMsgParamsSet[0] then some g.schedParams.prio else .none
  startTime := if g.isMsgParamsSet[1] then some g.startTimeParam else .none

/-- What a call of the interface is meant to do to the parameters that wait: a parameter is set, an
event takes them all. -/
def pendingStep (p : Pending) : MnCall → Pending
  | .setMsgParam (.sched _ prio) => { p with prio := some prio }
  | .setMsgParam (.startTime _ val) => { p with startTime := some val }
  | .setMsgParam (.other _) => p
  | .startSeq => p
  | .endSeq => p
  | .event _ _ => .none
  | .pullEvent _ _ => .none

/-- The parameters set since the last event. -/
def pendingAfter (calls : List MnCall) : Pending := calls.foldl pendingStep .none

theorem pendingAfter_append (pre : List MnCall) (call : MnCall) :
    pendingAfter (pre ++ [call]) = pendingStep (pendingAfter pre) call := by
  simp [pendingAfter]

/-- The parameters of a message for which these ones wait. -/
def Pending.params (p : Pending) : SchedParams :=
  match p.prio with
  | some prio => ⟨prio⟩
  | .none => defaultParams

theorem MsgGlobals.pending_eq_none :
    g.pending = .none ↔ g.isMsgParamsSet = Vector.replicate 2 false := by
  constructor
  · intro h
    have h0 : g.isMsgParamsSet[0] = false := by
      have := congrArg Pending.prio h
      by_contra hc
      simp [pending, Pending.none, hc] at this
    have h1 : g.isMsgParamsSet[1] = false := by
      have := congrArg Pending.startTime h
      by_contra hc
      simp [pending, Pending.none, hc] at this
    apply Vector.ext
    intro i hi
    rw [Vector.getElem_replicate]
    obtain rfl | rfl : i = 0 ∨ i = 1 := by omega
    · exact h0
    · exact h1
  · intro h
    simp [pending, h, Pending.none]

@[simp] theorem MsgGlobals.pending_configure (g : MsgGlobals) : g.configure.pending = .none :=
  MsgGlobals.pending_eq_none.2 rfl

/-- The direct path leaves the parameters alone. -/
theorem noopEvent_pending (c : EventCtx) (g : MsgGlobals) (isPull : Bool) (a : EventArgs) :
    (noopEvent c g isPull a).globals.pending = g.pending := by
  rw [noopEvent]
  dsimp only
  split_ifs <;> rfl

theorem networkEvent_pending (c : EventCtx) (g : MsgGlobals) (src dest : Lpid) (isPull : Bool)
    (appId : ℤ) (a : EventArgs) :
    (networkEvent c g src dest isPull appId a).globals.pending = .none :=
  MsgGlobals.pending_eq_none.2 rfl

theorem setMsgParam_pending {g' : MsgGlobals} {p : MsgParam} (h : setMsgParam g p = .ok g') :
    g'.pending = pendingStep g.pending (.setMsgParam p) := by
  cases p with
  | sched subType prio =>
    rw [setMsgParam] at h
    split_ifs at h
    obtain rfl := Except.ok.inj h
    simp [MsgGlobals.pending, pendingStep]
  | startTime subType val =>
    rw [setMsgParam] at h
    split_ifs at h
    obtain rfl := Except.ok.inj h
    simp [MsgGlobals.pending, pendingStep]
  | other type => cases h

/-- The arguments of an event call. -/
def MnCall.eventArgs : MnCall → Option EventArgs
  | event _ a => some a
  | pullEvent _ a => some a
  | _ => none

variable {sent : List Sent}

/-- What an event call sends that returns: the event goes straight to its destination, or to the
model-net LP. -/
theorem MnCall.run_base_ok {g' : MsgGlobals} (hb : call.base c = some b)
    (h : call.run c g = .ok (g', sent)) :
    (call.isNoop c = true ∧ ∃ r, r = noopEvent c g b.isPull b.args ∧ g' = r.globals ∧
      sent = r.sent) ∨
    (call.isNoop c = false ∧ ∃ src dest appId r, r = networkEvent c g src dest b.isPull
      appId b.args ∧ g' = r.globals ∧ sent = r.sent) := by
  rw [isNoop, hb]
  rw [run_base hb] at h
  obtain ⟨r, himpl, hr⟩ := Outcome.map_eq_ok h
  obtain ⟨hg, hsent⟩ := Prod.mk.inj hr
  obtain ⟨-, src, dest, -, ⟨hn, hr⟩ | ⟨hn, appId, -, hr⟩⟩ := eventImplBase_ok himpl
  · exact .inl ⟨hn, r, hr, hg, hsent⟩
  · exact .inr ⟨hn, src, dest, appId, r, hr, hg, hsent⟩

/-- What a call does to the parameters that wait: what it is meant to do, unless it takes the
direct path. -/
theorem MnCall.run_pending {g' : MsgGlobals} (h : call.run c g = .ok (g', sent)) :
    g'.pending = if call.isNoop c then g.pending else pendingStep g.pending call := by
  have hevent : ∀ b, call.base c = some b → pendingStep g.pending call = .none →
      g'.pending = if call.isNoop c then g.pending else pendingStep g.pending call := by
    intro b hb hstep
    obtain ⟨hn, r, rfl, rfl, -⟩ | ⟨hn, src, dest, appId, r, rfl, rfl, -⟩ := run_base_ok hb h
    · rw [hn, if_pos rfl, noopEvent_pending]
    · rw [hn, if_neg (by simp), networkEvent_pending, hstep]
  cases call with
  | setMsgParam p =>
    rw [run] at h
    cases hset : CodesSim.setMsgParam g p with
    | error e => rw [hset] at h; cases h
    | ok g'' =>
      rw [hset] at h
      obtain ⟨rfl, -⟩ := Prod.mk.inj (Except.ok.inj h)
      exact setMsgParam_pending hset
  | startSeq =>
    obtain ⟨rfl, -⟩ := Prod.mk.inj (Except.ok.inj h)
    rfl
  | endSeq =>
    obtain ⟨rfl, -⟩ := Prod.mk.inj (Except.ok.inj h)
    rfl
  | event api a => exact hevent _ rfl rfl
  | pullEvent api a => exact hevent _ rfl rfl

variable {a : EventArgs}

theorem MnCall.run_newMsg {g' : MsgGlobals}
    (ha : call.eventArgs = some a) (h : call.run c g = .ok (g', sent))
    {dest : Lpid} {offset : STime} {m : BaseMsg} (hm : .newMsg dest offset m ∈ sent) :
    call.isNoop c = false ∧ m.schedParams = g.pending.params ∧
      m.req.msgStartTime = g.pending.startTime.getD a.now := by
  have hevent : ∀ b, call.base c = some b → b.args.now = a.now →
      call.isNoop c = false ∧ m.schedParams = g.pending.params ∧
        m.req.msgStartTime = g.pending.startTime.getD a.now := by
    intro b hb hnow
    obtain ⟨hn, r, rfl, -, rfl⟩ | ⟨hn, src, dst, appId, r, rfl, -, rfl⟩ := run_base_ok hb h
    · -- the direct path sends payloads only
      rw [noopEvent] at hm
      dsimp only at hm
      split_ifs at hm <;> simp at hm
    · obtain ⟨-, -, rfl⟩ : dest = src ∧ _ ∧ m = newMsg g dst b.isPull appId b.args := by
        simpa [networkEvent] using hm
      refine ⟨hn, ?_, ?_⟩
      · rw [newMsg, Pending.params, MsgGlobals.pending]
        cases g.isMsgParamsSet[0] <;> simp
      · rw [newMsg, MsgGlobals.pending, ← hnow]
        cases g.isMsgParamsSet[1] <;> simp
  cases call with
  | setMsgParam p => cases ha
  | startSeq => cases ha
  | endSeq => cases ha
  | event api a' =>
    obtain rfl := Option.some.inj ha
    exact hevent _ rfl rfl
  | pullEvent api a' =>
    obtain rfl := Option.some.inj ha
    exact hevent _ rfl rfl

theorem MnCall.run_sends {g' : MsgGlobals}
    (ha : call.eventArgs = some a) (hn : call.isNoop c = false)
    (h : call.run c g = .ok (g', sent)) : ∃ dest offset m, .newMsg dest offset m ∈ sent := by
  have hevent : ∀ b, call.base c = some b → ∃ dest offset m, .newMsg dest offset m ∈ sent := by
    intro b hb
    obtain ⟨hn', -⟩ | ⟨-, src, dst, appId, r, rfl, -, rfl⟩ := run_base_ok hb h
    · rw [hn'] at hn
      cases hn
    · exact ⟨_, _, _, List.mem_singleton_self _⟩
  cases call with
  | setMsgParam p => cases ha
  | startSeq => cases ha
  | endSeq => cases ha
  | event api a' => exact hevent _ rfl
  | pullEvent api a' => exact hevent _ rfl

/-! ### Histories -/

theorem runCalls_append (c : EventCtx) (g : MsgGlobals) (pre post : List MnCall) :
    runCalls c g (pre ++ post) =
      match runCalls c g pre with
      | .error e => .error e
      | .ok g' => runCalls c g' post := by
  induction pre generalizing g with
  | nil => rfl
  | cons call pre ih =>
    rw [List.cons_append, runCalls, runCalls]
    cases call.run c g with
    | error e => rfl
    | ok r => exact ih r.1

theorem runCalls_ok_iff (c : EventCtx) (g : MsgGlobals) (calls : List MnCall) :
    (∃ g', runCalls c g calls = .ok g') ↔ ∀ call ∈ calls, call.returns c = true := by
  induction calls generalizing g with
  | nil => exact ⟨fun _ call h => absurd h List.not_mem_nil, fun _ => ⟨g, rfl⟩⟩
  | cons call calls ih =>
    rw [runCalls, List.forall_mem_cons, ← call.run_ok_iff c g]
    cases h : call.run c g with
    | error e => simp
    | ok r => simp [ih r.1]

/-- **Each message takes the parameters set for it.**  Over a history of calls that starts when
model-net is configured: the request of an event carries the priority and the start time set since
the event before it (or the defaults), and after an event no parameter waits. -/
def Consumed (c : EventCtx) (g : MsgGlobals) (calls : List MnCall) : Prop :=
  ∀ pre call, pre ++ [call] <+: calls → ∀ a, call.eventArgs = some a →
    ∀ g₁ g₂ sent, runCalls c g.configure pre = .ok g₁ → call.run c g₁ = .ok (g₂, sent) →
      g₂.isMsgParamsSet = Vector.replicate 2 false ∧
      ∀ dest offset m, .newMsg dest offset m ∈ sent →
        m.schedParams = (pendingAfter pre).params ∧
          m.req.msgStartTime = (pendingAfter pre).startTime.getD a.now

theorem pending_of_run {calls : List MnCall}
    (hstep : ∀ pre call, pre ++ [call] <+: calls → ∀ g₁ g₂ sent,
      runCalls c g.configure pre = .ok g₁ → call.run c g₁ = .ok (g₂, sent) →
      g₁.pending = pendingAfter pre → g₂.pending = pendingStep (pendingAfter pre) call)
    {pre : List MnCall} (hpre : pre <+: calls) {g₁ : MsgGlobals}
    (hrun : runCalls c g.configure pre = .ok g₁) : g₁.pending = pendingAfter pre := by
  induction pre using List.reverseRecOn generalizing g₁ with
  | nil =>
    obtain rfl := Except.ok.inj hrun
    rw [MsgGlobals.pending_configure]
    rfl
  | append_singleton pre call ih =>
    rw [runCalls_append] at hrun
    cases hmid : runCalls c g.configure pre with
    | error e => rw [hmid] at hrun; cases hrun
    | ok gm =>
      simp only [hmid, runCalls] at hrun
      cases hcall : call.run c gm with
      | error e => rw [hcall] at hrun; cases hrun
      | ok r =>
        rw [hcall] at hrun
        obtain rfl := Except.ok.inj hrun
        have hm := ih ((List.prefix_append pre [call]).trans hpre) hmid
        rw [pendingAfter_append]
        exact hstep pre call hpre gm r.1 r.2 hmid hcall hm

theorem pendingStep_event (ha : call.eventArgs = some a)
    (p : Pending) : pendingStep p call = .none := by
  cases call <;> first | rfl | cases ha

theorem MnCall.eventArgs_of_isNoop (h : call.isNoop c = true) : ∃ a, call.eventArgs = some a := by
  cases call with
  | setMsgParam p => cases h
  | startSeq => cases h
  | endSeq => cases h
  | event api a => exact ⟨a, rfl⟩
  | pullEvent api a => exact ⟨a, rfl⟩

/-- **Parameters reach exactly the next message** if and only if no parameter was set for a message
that takes the direct path. -/
theorem params_consumed_iff (c : EventCtx) (g : MsgGlobals) (calls : List MnCall) :
    Consumed c g calls ↔
      ∀ pre call, pre ++ [call] <+: calls → (∀ x ∈ pre ++ [call], x.returns c = true) →
        call.isNoop c = true → pendingAfter pre = .none := by
  constructor
  · intro hc pre call hpre hret hnoop
    have hpre' := (List.prefix_append pre [call]).trans hpre
    obtain ⟨g₁, hg₁⟩ := (runCalls_ok_iff c g.configure pre).2 fun x hx =>
      hret x (List.mem_append_left _ hx)
    obtain ⟨⟨g₂, sent⟩, hg₂⟩ := (call.run_ok_iff c g₁).2 (hret call (by simp))
    have hpend : g₁.pending = pendingAfter pre := by
      refine pending_of_run ?_ hpre' hg₁
      intro p x hx gp gq s hgp hgq hp
      cases hargs : x.eventArgs with
      | none =>
        have hn : x.isNoop c = false := by
          by_contra hn
          obtain ⟨a, ha⟩ := MnCall.eventArgs_of_isNoop (by simpa using hn)
          rw [ha] at hargs
          cases hargs
        rw [MnCall.run_pending hgq, hn, hp]
        rfl
      | some a =>
        have hclear := (hc p x hx a hargs gp gq s hgp hgq).1
        rw [pendingStep_event hargs, MsgGlobals.pending_eq_none.2 hclear]
    obtain ⟨a, ha⟩ := MnCall.eventArgs_of_isNoop hnoop
    have hclear := (hc pre call hpre a ha g₁ g₂ sent hg₁ hg₂).1
    have hkeep := MnCall.run_pending hg₂
    rw [hnoop, if_pos rfl] at hkeep
    rw [← hpend, ← hkeep, MsgGlobals.pending_eq_none.2 hclear]
  · intro hcond pre call hpre a ha g₁ g₂ sent hg₁ hg₂
    have hret : ∀ p x q s gp, runCalls c g.configure p = .ok gp → x.run c gp = .ok (q, s) →
        ∀ y ∈ p ++ [x], y.returns c = true := by
      intro p x q s gp hgp hq y hy
      obtain hy | hy := List.mem_append.1 hy
      · exact (runCalls_ok_iff c g.configure p).1 ⟨gp, hgp⟩ y hy
      · obtain rfl := List.mem_singleton.1 hy
        exact (y.run_ok_iff c gp).1 ⟨_, hq⟩
    -- a call on the direct path finds no parameter waiting, so that it does what it is meant to
    have hstep : ∀ p x, p ++ [x] <+: calls → ∀ gp gq s, runCalls c g.configure p = .ok gp →
        x.run c gp = .ok (gq, s) → gp.pending = pendingAfter p →
        gq.pending = pendingStep (pendingAfter p) x := by
      intro p x hx gp gq s hgp hgq hp
      rw [MnCall.run_pending hgq, hp]
      by_cases hn : x.isNoop c = true
      · obtain ⟨b, hb⟩ := MnCall.eventArgs_of_isNoop hn
        rw [if_pos hn, pendingStep_event hb, hcond p x hx (hret p x gq s gp hgp hgq) hn]
      · rw [if_neg hn]
    have hpend := pending_of_run hstep ((List.prefix_append pre [call]).trans hpre) hg₁
    refine ⟨?_, fun dest offset m hm => ?_⟩
    · rw [← MsgGlobals.pending_eq_none, hstep pre call hpre g₁ g₂ sent hg₁ hg₂ hpend,
        pendingStep_event ha]
    · obtain ⟨-, hparams, htime⟩ := MnCall.run_newMsg ha hg₂ hm
      rw [← hpend]
      exact ⟨hparams, htime⟩

/-- Two nodes with one LP and one model-net LP each. -/
def twoNodes : EventCtx where
  conf := [⟨"MODELNET_GRP", 2, [⟨"nw-lp", none, 1⟩, ⟨"modelnet_simplenet", none, 1⟩]⟩]
  cnDelay := 1 / 20
  nodeEagerLimit := 16000
  noopBypass := false
  latency := fun _ _ => 1
  msgSz := 1024
  wrapMsgSz := 512
  jobOf := none

/-- A message of 100 bytes from the first LP. -/
def shortMessage (finalDestLp : Lpid) : EventArgs where
  netId := .simplenet
  category := "test"
  finalDestLp := finalDestLp
  messageSize := 100
  offset := 0
  remoteEventSize := 0
  remoteEvent := none
  selfEventSize := 0
  selfEvent := none
  sender := 0
  now := 0
  event :=
    { req := default, isFromRemote := false, isQueueReq := false, saveTs := 0
      schedParams := default, rc := default, createdInSurrogate := false, data := fun _ => 0 }

/-- The globals of a program that has not set anything. -/
def untouched : MsgGlobals where
  isMsgParamsSet := Vector.replicate 2 false
  schedParams := ⟨0⟩
  startTimeParam := 0
  mnInSequence := false
  mnMsgOffset := 0
  draws := fun _ => 0

/-- **A message inside a node leaves its priority behind.**  The LP sets a priority for a short
message to itself; the next message, to the other node, carries it. -/
theorem params_left_behind :
    ¬ Consumed twoNodes untouched
      [.setMsgParam (.sched 0 5), .event .plain (shortMessage 0),
        .event .plain (shortMessage 2)] := by
  intro hc
  obtain ⟨⟨g₁, sent₁⟩, h₁⟩ := (MnCall.run_ok_iff twoNodes untouched.configure
    (.setMsgParam (.sched 0 5))).2 (by decide)
  obtain ⟨⟨g₂, sent₂⟩, h₂⟩ := (MnCall.run_ok_iff twoNodes g₁
    (.event .plain (shortMessage 0))).2 (by decide +kernel)
  obtain ⟨⟨g₃, sent₃⟩, h₃⟩ := (MnCall.run_ok_iff twoNodes g₂
    (.event .plain (shortMessage 2))).2 (by decide +kernel)
  have hkept : g₂.pending = ⟨some 5, none⟩ := by
    have hnoop : (MnCall.event .plain (shortMessage 0)).isNoop twoNodes = true := by
      decide +kernel
    rw [MnCall.run_pending h₂, if_pos hnoop, MnCall.run_pending h₁]
    rfl
  have hrun : runCalls twoNodes untouched.configure
      [.setMsgParam (.sched 0 5), .event .plain (shortMessage 0)] = .ok g₂ := by
    rw [runCalls, h₁]
    dsimp only
    rw [runCalls, h₂]
    rfl
  obtain ⟨dest, offset, m, hm⟩ := MnCall.run_sends (a := shortMessage 2) rfl (by decide +kernel) h₃
  obtain ⟨-, hparams, -⟩ := MnCall.run_newMsg (a := shortMessage 2) rfl h₃ hm
  have hdefault := ((hc _ _ List.prefix_rfl (shortMessage 2) rfl g₂ g₃ sent₃ hrun h₃).2
    dest offset m hm).1
  rw [hparams, hkept] at hdefault
  exact absurd hdefault (by decide)

end CodesSim
