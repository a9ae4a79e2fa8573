import CodesSim.Mapping.Relative
import CodesSim.Sched.Basic

/-!
# Ranks of the MPI replay

An LP that replays the trace of an MPI rank (`model-net-mpi-replay.c`) keeps two queues: messages
that have arrived and fit no receive yet, and posted receives that no message has come for.  An
arriving message looks for a receive (`updateArrivalQueue`), a posted receive looks for a message
(`codesExecMpiRecv`); a match is followed by what the protocol asks for: short messages complete
the receive, long ones send an acknowledgement to the sender first.

* A handler works on an `Ev`: the state of the LP, the message of the event, its bit field and the
  events sent so far.  A failed assertion or `tw_error` is an error.
* Receives may leave the source or the tag open with `-1` (`fits`).
* Receive and wait times are summed up twice, in the state and in the sample of the statistics.
-/

namespace CodesSim.Replay

open CodesMapping

/-- The operations of a trace that matter here (`codes_workload_op_type`). -/
inductive WkOp where
  | send | recv | isend | irecv | waitall | wait | waitsome | waitany | other
  deriving DecidableEq, Inhabited

/-- An entry of either queue (`mpi_msgs_queue`). -/
structure QMsg where
  opType : WkOp
  (tag sourceRank destRank numBytes : ℤ)
  reqInitTime : STime
  reqId : UInt32
  deriving DecidableEq, Inhabited

/-- A wait operation that has not completed (`pending_waits`); the count is the number of its
requests. -/
structure PendingWaits where
  opType : WkOp
  reqIds : List UInt32
  numCompleted : ℤ
  startTime : STime

/-- What the stack `processed_ops` keeps for rollbacks. -/
inductive Processed where
  /-- An entry that was matched (`mpi_msgs_queue`). -/
  | op (q : QMsg)
  /-- A completed request that a wait has taken (`completed_requests`). -/
  | req (reqId : UInt32)

/-- Latencies of the messages of one size (`msg_size_info`). -/
structure MsgSizeInfo where
  msgSize : ℤ
  numMsgs : ℤ
  aggLatency : STime
  avgLatency : STime

/-- The part of the statistics sample that is kept up here (`ross_model_sample`). -/
structure RossSample where
  numBytesRecvd : UInt64
  recvTime : STime
  waitTime : STime

/-- The state of a rank (`nw_state`).  The hash table of message sizes is the list of its entries,
and the stacks for rollback have their top in front. -/
structure NwState where
  appId : ℤ
  qosLevel : ℤ
  recvTime : STime
  waitTime : STime
  numBytesRecvd : UInt64
  sample : RossSample
  arrivalQueue : List QMsg
  pendingRecvsQueue : List QMsg
  completedReqs : List UInt32
  waitOp : Option PendingWaits
  msgSzList : List MsgSizeInfo
  processedOps : List Processed
  processedWaitOp : List PendingWaits
  /-- Requests with their former places among the completed ones. -/
  matchedReqs : List (UInt32 × ℕ)

/-- The union of an event in which a handler saves what its reverse needs: five words that the
handlers use under different names. -/
structure RcArea where
  (w0 w1 w2 w3 : STime)
  w4 : ℤ

/-- An event (`nw_message`): what it carries and what the handlers leave in it. -/
structure NwMsg where
  opType : WkOp
  srcRank : Lpid
  (destRank numBytes numMatched : ℤ)
  simStartTime : STime
  reqId : UInt32
  (matchedReq tag appId foundMatch waitCompleted : ℤ)
  rc : RcArea

/-- The bits of `tw_bf` the handlers use. -/
structure NwBf where
  (c1 c6 c8 c9 c10 c12 c29 c30 c31 : Bool)

/-- The message that tells the sender of a long message that a receive waits
(`MPI_REND_ACK_ARRIVED`). -/
structure AckMsg where
  simStartTime : STime
  destRank : ℤ
  srcRank : ℤ
  opType : WkOp
  tag : ℤ
  numBytes : ℤ
  reqId : UInt32
  matchedReq : ℤ
  deriving DecidableEq

/-- What the handlers send. -/
inductive NwOut where
  /-- `MPI_OP_GET_NEXT` to this LP. -/
  | getNext
  /-- `MPI_SEND_ARRIVED_CB` to the sender, with the time the message took. -/
  | arrivedCb (dest : Lpid) (msgSendTime : STime)
  /-- An acknowledgement handed to model-net with a traffic class. -/
  | ack (prio : String) (dest : Lpid) (msg : AckMsg)
  deriving DecidableEq

/-- A handler at work. -/
structure Ev where
  s : NwState
  m : NwMsg
  bf : NwBf
  outs : List NwOut

namespace Ev

/-- Set bits of the bit field. -/
def setBf (e : Ev) (f : NwBf → NwBf) : Ev := { e with bf := f e.bf }

/-- Leave something in the message. -/
def setMsg (e : Ev) (f : NwMsg → NwMsg) : Ev := { e with m := f e.m }

/-- Change the state. -/
def setState (e : Ev) (f : NwState → NwState) : Ev := { e with s := f e.s }

/-- Send an event. -/
def send (e : Ev) (o : NwOut) : Ev := { e with outs := e.outs ++ [o] }

end Ev

/-- Save something for the reverse. -/
def NwMsg.setRc (m : NwMsg) (f : RcArea → RcArea) : NwMsg := { m with rc := f m.rc }

/-- Change the sample. -/
def NwState.setSample (s : NwState) (f : RossSample → RossSample) : NwState :=
  { s with sample := f s.sample }

/-- The surroundings of a rank. -/
structure ReplayCtx where
  conf : LpConf
  /-- `EAGER_THRESHOLD`. -/
  eagerThreshold : ℤ
  /-- `enable_msg_tracking`. -/
  enableMsgTracking : Bool
  /-- `prioritize_collectives`. -/
  prioritizeCollectives : Bool
  /-- The global rank of a rank of a job, if an allocation is given (`alloc_spec`). -/
  globalIdOfJobRank : Option (ℤ → ℤ → ℤ)
  /-- The time of the event. -/
  now : STime

/-! ### Helpers -/

/-- A receive takes a message: the tags and the sources agree or are left open. -/
def fits (recv msg : QMsg) : Bool :=
  (recv.tag == msg.tag || recv.tag == -1) &&
    (recv.sourceRank == msg.sourceRank || recv.sourceRank == -1)

/-- The loop over a queue: the index and the value of the first entry that passes a test. -/
def firstMatch {α : Type*} (p : α → Bool) : ℕ → List α → Option (ℕ × α)
  | _, [] => none
  | index, x :: xs => if p x then some (index, x) else firstMatch p (index + 1) xs

/-- `codes_issue_next_event`. -/
def codesIssueNextEvent (e : Ev) : Ev := e.send .getNext

/-- The rank in the simulation of a rank of this job. -/
def globalRank (c : ReplayCtx) (appId rank : ℤ) : ℤ :=
  match c.globalIdOfJobRank with
  | some f => f appId rank
  | none => rank

/-- `rank_to_lpid`. -/
def rankToLpid (c : ReplayCtx) (rank : ℤ) : Except String Lpid :=
  match getLpidFromRelative c.conf rank none "nw-lp" none false with
  | .ok gid => .ok gid
  | .error (.notFound text) => .error text
  | .error .divisionByZero => .error "division by zero"

/-- `update_message_size`: a latency is added to the figures for its message size. -/
def updateMessageSize (now : STime) (e : Ev) (qitem : QMsg) (isSend : Bool) : Ev :=
  let msgInitTime := if isSend then e.m.simStartTime else qitem.reqInitTime
  let infos := e.s.msgSzList
  let infos' :=
    match firstMatch (fun i : MsgSizeInfo => i.msgSize == qitem.numBytes) 0 infos with
    | none => ⟨qitem.numBytes, 1, now - msgInitTime, now - msgInitTime⟩ :: infos
    | some (index, i) =>
      let agg := i.aggLatency + (now - msgInitTime)
      infos.set index ⟨i.msgSize, i.numMsgs + 1, agg, agg / (i.numMsgs + 1)⟩
  e.setState fun s => { s with msgSzList := infos' }

/-- The loop of `notify_posted_wait`: the completed requests of the wait, those it counted in this
event and whether the wait is over. -/
def countCompleted (completedReq : UInt32) (count : ℤ) :
    ℤ → ℤ → Bool → List UInt32 → ℤ × ℤ × Bool
  | numCompleted, here, done, [] => (numCompleted, here, done)
  | numCompleted, here, done, r :: rs =>
    if r = completedReq then
      countCompleted completedReq count (numCompleted + 1) (here + 1)
        (done || decide (numCompleted + 1 ≥ count)) rs
    else countCompleted completedReq count numCompleted here done rs

/-- `notify_posted_wait`. -/
def notifyPostedWait (e : Ev) (completedReq : UInt32) : Ev × Bool :=
  let e := e.setMsg fun m => { m with waitCompleted := 0 }
  match e.s.waitOp with
  | none => (e, false)
  | some w =>
    if w.opType = .wait ∧ w.reqIds.head? = some completedReq then (e, true)
    else if w.opType = .waitall ∨ w.opType = .waitany ∨ w.opType = .waitsome then
      let r := countCompleted completedReq w.reqIds.length w.numCompleted 0 false w.reqIds
      let e := e.setState fun s => { s with waitOp := some { w with numCompleted := r.1 } }
      (e.setMsg fun m => { m with waitCompleted := r.2.1 }, r.2.2)
    else (e, false)

/-- The loop of `clear_completed_reqs`: what stays, and what was taken out with its index. -/
def clearCompleted (reqs : List UInt32) :
    ℕ → List UInt32 → List (UInt32 × ℕ) → List UInt32 × List (UInt32 × ℕ)
  | _, [], taken => ([], taken)
  | index, r :: rs, taken =>
    if r ∈ reqs then clearCompleted reqs (index + 1) rs ((r, index) :: taken)
    else
      let rest := clearCompleted reqs (index + 1) rs taken
      (r :: rest.1, rest.2)

/-- The wait is over: its requests leave the completed ones, and the trace goes on. -/
def finishWait (now : STime) (e : Ev) (w : PendingWaits) : Ev :=
  let r := clearCompleted w.reqIds 0 e.s.completedReqs []
  let e := e.setBf fun b => { b with c31 := true }
  let e := e.setMsg fun m =>
    { m with numMatched := r.2.length }.setRc fun rc =>
      { rc with w0 := e.s.waitTime, w1 := e.s.sample.waitTime }
  let e := e.setState fun s =>
    { s with
      completedReqs := r.1
      matchedReqs := r.2 ++ s.matchedReqs
      waitTime := s.waitTime + (now - w.startTime)
      processedWaitOp := w :: s.processedWaitOp
      waitOp := none }.setSample fun x => { x with waitTime := x.waitTime + (now - w.startTime) }
  codesIssueNextEvent e

/-- `update_completed_queue`. -/
def updateCompletedQueue (now : STime) (e : Ev) (reqId : UInt32) : Ev :=
  let e := e.setBf fun b => { b with c30 := false, c31 := false }
  let e := e.setMsg fun m => { m with numMatched := 0 }
  let n := notifyPostedWait e reqId
  match n.2, n.1.s.waitOp with
  | true, some w => finishWait now n.1 w
  | _, _ =>
    let e := n.1.setBf fun b => { b with c30 := true }
    e.setState fun s => { s with completedReqs := reqId :: s.completedReqs }

/-- The traffic class of a job. -/
def qosPrio (qosLevel : ℤ) : Option String :=
  if qosLevel = 0 then some "high"
  else if qosLevel = 1 then some "medium"
  else if qosLevel = 2 then some "low"
  else if qosLevel = 3 then some "class3"
  else if qosLevel = 4 then some "class4"
  else if qosLevel = 5 then some "class5"
  else none

/-- Tags of the messages of collective operations (`COL_TAG`, `BAR_TAG`). -/
def colTag : ℤ := 1235

/-- The tag of the messages of a barrier. -/
def barTag : ℤ := 1234

/-- `send_ack_back`. -/
def sendAckBack (c : ReplayCtx) (e : Ev) (mpiOp : QMsg) (matchedReq : ℤ) : Except String Ev :=
  match rankToLpid c (globalRank c e.s.appId mpiOp.sourceRank) with
  | .error text => .error text
  | .ok dest =>
    match qosPrio e.s.qosLevel with
    | none => .error ("\n Invalid QoS level: " ++ toString e.s.qosLevel)
    | some prio =>
      let collective := mpiOp.tag = colTag ∨ mpiOp.tag = barTag
      let prio := if c.prioritizeCollectives ∧ collective then "high" else prio
      let msg : AckMsg :=
        { simStartTime := mpiOp.reqInitTime, destRank := mpiOp.destRank
          srcRank := mpiOp.sourceRank, opType := mpiOp.opType, tag := mpiOp.tag
          numBytes := mpiOp.numBytes, reqId := mpiOp.reqId, matchedReq := matchedReq }
      .ok (e.send (.ack prio dest msg))

/-- A request id as an `int`. -/
def reqInt (reqId : UInt32) : ℤ := wrapInt reqId.toNat

/-! ### Matching -/

/-- Time spent in a receive. -/
def addRecvTime (e : Ev) (time : STime) : Ev :=
  e.setState fun s =>
    { s with recvTime := s.recvTime + time }.setSample fun x =>
      { x with recvTime := x.recvTime + time }

/-- The receive times saved under the names of arriving messages. -/
def saveRecvTimeSend (e : Ev) : Ev :=
  e.setMsg fun m => m.setRc fun rc => { rc with w2 := e.s.recvTime, w3 := e.s.sample.recvTime }

/-- The receive times saved under the names of receive operations. -/
def saveRecvTimeNext (e : Ev) : Ev :=
  e.setMsg fun m => m.setRc fun rc => { rc with w1 := e.s.recvTime, w2 := e.s.sample.recvTime }

/-- A short message is counted among the sizes. -/
def trackMessageSize (c : ReplayCtx) (e : Ev) (q : QMsg) (isSend : Bool) : Ev :=
  if c.enableMsgTracking ∧ q.numBytes < c.eagerThreshold then updateMessageSize c.now e q isSend
  else e

/-- What `rm_matching_rcv` does for a message `qitem` and the receive `qi` it was matched to. -/
def receiveMatched (c : ReplayCtx) (e : Ev) (qi qitem : QMsg) : Except String Ev :=
  let e := e.setMsg fun m => m.setRc fun rc => { rc with w4 := qi.numBytes }
  let e := trackMessageSize c e qitem true
  if qitem.numBytes ≥ c.eagerThreshold then
    sendAckBack c (e.setBf fun b => { b with c10 := true }) qitem (reqInt qi.reqId)
  else
    let e := saveRecvTimeSend (e.setBf fun b => { b with c12 := true })
    let e := addRecvTime e (c.now - e.m.simStartTime)
    if qi.opType = .irecv then
      .ok (updateCompletedQueue c.now (e.setBf fun b => { b with c9 := true }) qi.reqId)
    else if qi.opType = .recv then
      .ok (codesIssueNextEvent (e.setBf fun b => { b with c8 := true }))
    else .ok e

/-- `rm_matching_rcv`: take the first receive that fits a message out of the queue, and its
index there; `-1` if there is none.  The receive takes over the size of the message. -/
def rmMatchingRcv (c : ReplayCtx) (e : Ev) (qitem : QMsg) : Except String (Ev × ℤ) :=
  match firstMatch (fun qi => fits qi qitem) 0 e.s.pendingRecvsQueue with
  | none => .ok (e, -1)
  | some (index, qi) =>
    match receiveMatched c e qi qitem with
    | .error text => .error text
    | .ok e =>
      .ok (e.setState fun s =>
        { s with
          pendingRecvsQueue := s.pendingRecvsQueue.eraseIdx index
          processedOps := .op { qi with numBytes := qitem.numBytes } :: s.processedOps }, index)

/-- What `rm_matching_send` does for a receive `qitem` and the message `qi` it was matched to.  The
receive has taken over the size of the message. -/
def messageMatched (c : ReplayCtx) (e : Ev) (qi qitem : QMsg) : Except String Ev :=
  let e := trackMessageSize c e qi false
  let e := e.setMsg fun m => { m with matchedReq := reqInt qitem.reqId }
  let waited := c.now - qitem.reqInitTime
  if qi.numBytes ≥ c.eagerThreshold then
    match sendAckBack c (e.setBf fun b => { b with c10 := true }) qi (reqInt qitem.reqId) with
    | .error text => .error text
    | .ok e => .ok (addRecvTime (saveRecvTimeNext e) waited)
  else
    let e := addRecvTime (saveRecvTimeNext e) waited
    if qitem.opType = .irecv then
      .ok (updateCompletedQueue c.now (e.setBf fun b => { b with c29 := true }) qitem.reqId)
    else if qitem.opType = .recv then
      .ok (codesIssueNextEvent (e.setBf fun b => { b with c6 := true }))
    else .ok e

/-- `rm_matching_send`: take the first message that fits a receive out of the queue, and its index
there; `-1` if there is none. -/
def rmMatchingSend (c : ReplayCtx) (e : Ev) (qitem : QMsg) : Except String (Ev × ℤ) :=
  match firstMatch (fun qi => fits qitem qi) 0 e.s.arrivalQueue with
  | none => .ok (e, -1)
  | some (index, qi) =>
    match messageMatched c e qi qitem with
    | .error text => .error text
    | .ok e =>
      .ok (e.setState fun s =>
        { s with
          arrivalQueue := s.arrivalQueue.eraseIdx index
          processedOps := .op qi :: s.processedOps }, index)

/-- A receive operation of the trace (`codes_workload_op`). -/
structure RecvOp where
  opType : WkOp
  (sourceRank destRank numBytes tag : ℤ)
  reqId : UInt32

/-- The queue entry of a receive. -/
def RecvOp.entry (now : STime) (op : RecvOp) : QMsg where
  opType := op.opType
  tag := op.tag
  sourceRank := op.sourceRank
  destRank := op.destRank
  numBytes := op.numBytes
  reqInitTime := now
  reqId := op.reqId

/-- `codes_exec_mpi_recv`. -/
def codesExecMpiRecv (c : ReplayCtx) (e : Ev) (mpiOp : RecvOp) : Except String Ev :=
  let recvOp := mpiOp.entry c.now
  match rmMatchingSend c (saveRecvTimeNext e) recvOp with
  | .error text => .error text
  | .ok (e, foundMatchingSends) =>
    let e :=
      if mpiOp.opType = .irecv then codesIssueNextEvent (e.setBf fun b => { b with c6 := true })
      else e
    let e := e.setMsg fun m =>
      { m with foundMatch := if foundMatchingSends < 0 then -1 else foundMatchingSends }
    if foundMatchingSends < 0 then
      .ok (e.setState fun s => { s with pendingRecvsQueue := s.pendingRecvsQueue ++ [recvOp] })
    else .ok e

/-- The queue entry of a message. -/
def NwMsg.entry (m : NwMsg) : QMsg where
  opType := m.opType
  tag := m.tag
  sourceRank := toInt m.srcRank
  destRank := m.destRank
  numBytes := m.numBytes
  reqInitTime := m.simStartTime
  reqId := m.reqId

/-- The bytes of a message are counted. -/
def countBytes (e : Ev) : Ev :=
  let n := UInt64.ofInt e.m.numBytes
  e.setState fun s =>
    { s with numBytesRecvd := s.numBytesRecvd + n }.setSample fun x =>
      { x with numBytesRecvd := x.numBytesRecvd + n }

/-- The sender of a short message is told that it has arrived. -/
def sendCallback (c : ReplayCtx) (e : Ev) : Except String Ev :=
  if e.m.numBytes < c.eagerThreshold then
    match rankToLpid c (globalRank c e.s.appId (toInt e.m.srcRank)) with
    | .error text => .error text
    | .ok dest =>
      let e := e.setBf fun b => { b with c1 := true }
      .ok (e.send (.arrivedCb dest (c.now - e.m.simStartTime)))
  else .ok e

/-- `update_arrival_queue`. -/
def updateArrivalQueue (c : ReplayCtx) (e : Ev) : Except String Ev :=
  if e.s.appId ≠ e.m.appId then .error "s->app_id == m->fwd.app_id"
  else
    match sendCallback c (countBytes (saveRecvTimeSend e)) with
    | .error text => .error text
    | .ok e =>
      let arrivedOp := e.m.entry
      match rmMatchingRcv c e arrivedOp with
      | .error text => .error text
      | .ok (e, foundMatchingRecv) =>
        let e := e.setMsg fun m =>
          { m with foundMatch := if foundMatchingRecv < 0 then -1 else foundMatchingRecv }
        if foundMatchingRecv < 0 then
          .ok (e.setState fun s => { s with arrivalQueue := s.arrivalQueue ++ [arrivedOp] })
        else .ok e

end CodesSim.Replay
