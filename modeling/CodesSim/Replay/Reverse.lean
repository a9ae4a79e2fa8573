import CodesSim.Lib.Outcome
import CodesSim.Replay.Handler
import CodesSim.Workload.Rewind

/-!
# The reverse handler of a rank

What `nw_test_event_handler_rc` does.  Entries go back into the queues at the indices that the
forward handler has left in the message; the requests that a wait has taken out all at once come
from a stack, and the index of each counts those taken out before it (`addCompletedReqs`).

* The events that a handler has sent are taken back by ROSS and not here.
* `getNextMpiOperation` and its reverse are the whole step of a trace: the operation comes from the
  workload interface and goes back there.
-/

namespace CodesSim.Replay

open Workload

/-! ### Lists -/

/-- `qlist_add_at_index`: the list is circular, and its head is the place with index 0. -/
def qlistAddAtIndex {α : Type*} (x : α) (l : List α) (index : ℤ) : List α :=
  l.insertIdx (index % (l.length + 1)).toNat x

/-- What `tw_error` says about an empty stack. -/
def emptyStack : String := "could not pop item from rc stack (stack likely empty)\n"

/-- One round of `add_completed_reqs`. -/
def addCompletedReq (count : ℤ) (s : NwState) (i : ℕ) : Except String NwState :=
  match s.matchedReqs with
  | [] => .error emptyStack
  | req :: rest =>
    .ok { s with
      matchedReqs := rest
      completedReqs := qlistAddAtIndex req.1 s.completedReqs (req.2 - count + i + 1) }

/-- `add_completed_reqs`. -/
def addCompletedReqs (s : NwState) (count : ℤ) : Except String NwState :=
  (List.range count.toNat).foldlM (addCompletedReq count) s

/-- `rc_stack_pop` of `processed_ops`. -/
def popProcessed (s : NwState) : Except String (Processed × NwState) :=
  match s.processedOps with
  | [] => .error emptyStack
  | x :: rest => .ok (x, { s with processedOps := rest })

/-! ### Queues -/

/-- The first part of `update_completed_queue_rc`. -/
def undoCompleted (s : NwState) (m : NwMsg) (bf : NwBf) : Except String NwState :=
  if bf.c30 then
    match s.completedReqs with
    | [] => .error "qlist_pop of an empty list"
    | _ :: rest => .ok { s with completedReqs := rest }
  else if bf.c31 then
    match s.processedWaitOp with
    | [] => .error emptyStack
    | w :: rest =>
      addCompletedReqs ({ s with
        processedWaitOp := rest
        waitOp := some w
        waitTime := m.rc.w0 }.setSample fun x => { x with waitTime := m.rc.w1 }) m.numMatched
  else .ok s

/-- `update_completed_queue_rc`. -/
def updateCompletedQueueRc (s : NwState) (m : NwMsg) (bf : NwBf) : Except String NwState :=
  match undoCompleted s m bf with
  | .error text => .error text
  | .ok s =>
    if m.waitCompleted > 0 then
      match s.waitOp with
      | none => .error "s->wait_op is NULL"
      | some w =>
        .ok { s with waitOp := some { w with numCompleted := w.numCompleted - m.waitCompleted } }
    else .ok s

/-- `update_arrival_queue_rc`. -/
def updateArrivalQueueRc (s : NwState) (m : NwMsg) (bf : NwBf) : Except String NwState :=
  let n := UInt64.ofInt m.numBytes
  let s := { s with numBytesRecvd := s.numBytesRecvd - n }.setSample fun x =>
    { x with numBytesRecvd := x.numBytesRecvd - n }
  if m.foundMatch ≥ 0 then
    match popProcessed s with
    | .error text => .error text
    | .ok (.req _, _) => .error "not an mpi_msgs_queue"
    | .ok (.op qi, s) =>
      let qi := { qi with numBytes := m.rc.w4 }
      let s := { s with pendingRecvsQueue := s.pendingRecvsQueue.insertIdx m.foundMatch.toNat qi }
      let s :=
        if bf.c12 then
          { s with recvTime := m.rc.w2 }.setSample fun x => { x with recvTime := m.rc.w3 }
        else s
      if bf.c9 then updateCompletedQueueRc s m bf else .ok s
  else
    match s.arrivalQueue with
    | [] => .error "qlist_pop_back of an empty list"
    | _ :: _ => .ok { s with arrivalQueue := s.arrivalQueue.dropLast }

/-- `codes_exec_mpi_recv_rc`. -/
def codesExecMpiRecvRc (s : NwState) (m : NwMsg) (bf : NwBf) : Except String NwState :=
  let s := { s with recvTime := m.rc.w1 }.setSample fun x => { x with recvTime := m.rc.w2 }
  if m.foundMatch ≥ 0 then
    match popProcessed s with
    | .error text => .error text
    | .ok (.req _, _) => .error "not an mpi_msgs_queue"
    | .ok (.op qi, s) =>
      let s := { s with arrivalQueue := s.arrivalQueue.insertIdx m.foundMatch.toNat qi }
      if bf.c29 then updateCompletedQueueRc s m bf else .ok s
  else
    match s.pendingRecvsQueue with
    | [] => .error "qlist_pop_back of an empty list"
    | _ :: _ => .ok { s with pendingRecvsQueue := s.pendingRecvsQueue.dropLast }

/-- `codes_exec_mpi_wait_rc`. -/
def codesExecMpiWaitRc (s : NwState) (m : NwMsg) (bf : NwBf) : Except String NwState :=
  if bf.c1 then
    match popProcessed s with
    | .error text => .error text
    | .ok (.op _, _) => .error "not a completed_requests"
    | .ok (.req r, s) =>
      .ok { s with completedReqs := s.completedReqs.insertIdx m.foundMatch.toNat r }
  else .ok { s with waitOp := none }

/-- `codes_exec_mpi_wait_all_rc`, less the sample. -/
def codesExecMpiWaitAllRc (s : NwState) (m : NwMsg) : Except String NwState :=
  match s.waitOp with
  | some _ => .ok { s with waitOp := none }
  | none => addCompletedReqs s m.numMatched

/-! ### Samples and sends -/

/-- A sample of a wait is taken back. -/
def sampleWaitsRc (c : RankCtx) (w : Work) : Sampling :=
  let p := w.r.sampling
  if w.bf.c1 then
    let x := p.samples p.samplingIndx
    let p := { p with
      samples := Function.update p.samples p.samplingIndx
        { x with numWaitsSample := x.numWaitsSample - 1 } }
    if w.obf.c2 then
      { p with
        curIntervalEnd := p.curIntervalEnd - c.samplingInterval
        samplingIndx := p.samplingIndx - 1 }
    else p
  else p

/-- A sample of a send is taken back. -/
def sampleSendRc (c : RankCtx) (w : Work) : Sampling :=
  let p := w.r.sampling
  if c.enableSampling then
    let x := p.samples p.samplingIndx
    let p := { p with
      samples := Function.update p.samples p.samplingIndx
        { x with
          numSendsSample := x.numSendsSample - 1
          numBytesSample := x.numBytesSample - UInt64.ofInt w.savedNumBytes } }
    if w.bf.c1 then
      { p with
        samplingIndx := p.samplingIndx - 1
        curIntervalEnd := p.curIntervalEnd - c.samplingInterval }
    else p
  else p

/-- `codes_exec_mpi_send_rc`. -/
def codesExecMpiSendRc (c : RankCtx) (w : Work) : Rank :=
  let t := w.r.t
  let t :=
    if w.obf.c15 ∨ w.obf.c16 then
      { t with numSends := t.numSends - 1, sampleNumSends := t.sampleNumSends - 1 }
    else t
  let t :=
    if w.obf.c3 then
      { t with
        numBytesSent := t.numBytesSent - UInt64.ofInt w.savedNumBytes
        sampleNumBytesSent := t.sampleNumBytesSent - UInt64.ofInt w.savedNumBytes }
    else t
  { w.r with t := t, sampling := sampleSendRc c w }

/-! ### Events -/

/-- The queues are as the reverse of an operation has left them. -/
def Work.undone (w : Work) (s : NwState) (t : Tallies) : Rank := { w.r with s := s, t := t }

/-- The switch of `get_next_mpi_operation_rc`. -/
def undoOp (c : RankCtx) (w : Work) : WorkloadOp → Except String Rank
  | .wkEnd => .ok { w.r with t := { w.r.t with isFinished := false, elapsedTime := w.m.rc.w0 } }
  | .send _ | .isend _ => .ok (codesExecMpiSendRc c w)
  | .recv _ | .irecv _ =>
    (codesExecMpiRecvRc w.r.s w.m w.bf).map fun s => w.undone s
      { w.r.t with
        numRecvs := w.r.t.numRecvs - 1, sampleNumRecvs := w.r.t.sampleNumRecvs - 1 }
  | .delay _ =>
    let t := { w.r.t with numDelays := w.r.t.numDelays - 1 }
    .ok { w.r with t :=
      if c.disableDelay then t
      else { t with computeTime := w.m.rc.w1, sampleComputeTime := w.m.rc.w2 } }
  | .allreduce =>
    .ok { w.r with t :=
      if w.obf.c27 then
        { w.r.t with
          numAllReduce := w.r.t.numAllReduce - 1
          colTime := w.m.rc.w1
          allReduceTime := w.m.rc.w2 }
      else { w.r.t with colTime := 0 } }
  | .bcast | .allgather | .allgatherv | .alltoall | .alltoallv | .reduce | .col =>
    .ok { w.r with t := { w.r.t with numCols := w.r.t.numCols - 1 } }
  | .waitsome | .waitany =>
    .ok { w.r with t := { w.r.t with numWaitsome := w.r.t.numWaitsome - 1 } }
  | .wait _ =>
    (codesExecMpiWaitRc w.r.s w.m w.bf).map fun s =>
      w.undone s { w.r.t with numWait := w.r.t.numWait - 1 }
  | .waitall _ =>
    (codesExecMpiWaitAllRc w.r.s w.m).map fun s =>
      { w.undone s { w.r.t with numWaitall := w.r.t.numWaitall - 1 } with
        sampling := sampleWaitsRc c w }
  | .mark _ | .invalid _ => .ok w.r

/-- `get_next_mpi_operation_rc`, when the trace has its operation back. -/
def execMpiOpRc (c : RankCtx) (w : Work) : Except String Rank :=
  if w.obf.c14 ∨ w.obf.c18 then .ok w.r else undoOp c w w.op

/-- `nw_test_event_handler_rc`, for the events of `NwEvent`. -/
def nwTestEventHandlerRc (c : RankCtx) (event : NwEvent) (w : Work) : Except String Rank :=
  match event with
  | .sendArrived _ => (updateArrivalQueueRc w.r.s w.m w.bf).map fun s => w.undone s w.r.t
  | .sendPosted _ _ =>
    if w.obf.c28 then (updateCompletedQueueRc w.r.s w.m w.bf).map fun s => w.undone s w.r.t
    else .ok w.r
  | .rendAckArrived _ => .ok (codesExecMpiSendRc c w)
  | .rendArrived _ =>
    (if w.bf.c8 then updateCompletedQueueRc w.r.s w.m w.bf else .ok w.r.s).map fun s =>
      w.undone ({ s with recvTime := w.m.rc.w2 }.setSample fun x =>
        { x with recvTime := w.m.rc.w3 }) w.r.t
  | .getNext _ _ => execMpiOpRc c w

/-! ### The trace -/

variable {σ : Type*}

/-- The application and the rank whose trace is replayed. -/
def Rank.trace (r : Rank) : ℤ × ℤ := (r.s.appId, r.localRank)

/-- `get_next_mpi_operation`. -/
def getNextMpiOperation (methods : List (Method σ WorkloadOp)) (c : RankCtx)
    (wk : Workloads σ WorkloadOp) (w : Work) : Except String (Workloads σ WorkloadOp × Work) :=
  match codesWorkloadGetNext methods WorkloadOp.opType w.r.wrkldId w.r.trace wk with
  | none => .error "codes_workload_get_next"
  | some (op, wk) => (execMpiOp c w op).map (Prod.mk wk)

/-- `get_next_mpi_operation_rc`. -/
def getNextMpiOperationRc (c : RankCtx) (wk : Workloads σ WorkloadOp) (w : Work) :
    Except String (Workloads σ WorkloadOp × Rank) :=
  match codesWorkloadGetNextRc w.r.trace w.op wk with
  | none => .error "codes_workload_get_next_rc"
  | some wk => (execMpiOpRc c w).map (Prod.mk wk)

end CodesSim.Replay
