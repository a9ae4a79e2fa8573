import CodesSim.Replay.Basic

/-!
# The handler of a rank

What an LP of the MPI replay does with an event (`nw_test_event_handler`).  `MPI_OP_GET_NEXT` takes
the next operation out of the trace (`execMpiOp`): a receive or a wait works on the queues of
`CodesSim.Replay.Basic`, a send hands a message to model-net, and everything else is counted.  Most
operations end with another `MPI_OP_GET_NEXT`; blocking ones leave it to the event they wait for.

* A `Work` is a handler at work on a whole rank: the queues, the counters and the samples.
* The delays of model-net and the sizes of its control messages are left out, and so are the global
  sums over all ranks and the output for debugging.
* The collectors of the stacks for rollback drop what is older than GVT: as many of the newest
  entries stay as the environment says.
* `mpi_ack.saved_num_bytes` lies in the message where `mpi_next.saved_elapsed_time` does; a send
  uses only the one, the end of the trace only the other.
-/

namespace CodesSim.Replay

open CodesMapping

/-! ### Operations -/

/-- The operands of sends and receives (`u.send` and `u.recv` of `codes_workload_op`). -/
structure P2p where
  (sourceRank destRank numBytes tag : ℤ)
  reqId : UInt32

/-- An operation of a trace (`codes_workload_op`). -/
inductive WorkloadOp where
  /-- `CODES_WK_END`. -/
  | wkEnd
  | delay (nsecs : STime)
  | send (u : P2p)
  | recv (u : P2p)
  | isend (u : P2p)
  | irecv (u : P2p)
  | bcast
  | allgather
  | allgatherv
  | alltoall
  | alltoallv
  | reduce
  | allreduce
  | col
  | waitall (reqIds : List UInt32)
  | wait (reqId : UInt32)
  | waitsome
  | waitany
  /-- `CODES_WK_MARK`, with the number of the iteration. -/
  | mark (tag : ℤ)
  /-- Operations that the replay does not know, with their number. -/
  | invalid (opType : ℕ)

namespace WorkloadOp

/-- The numbers of `codes_workload_op_type`. -/
def opType : WorkloadOp → ℕ
  | wkEnd => 1
  | delay _ => 2
  | send _ => 8
  | recv _ => 9
  | isend _ => 10
  | irecv _ => 11
  | bcast => 12
  | allgather => 13
  | allgatherv => 14
  | alltoall => 15
  | alltoallv => 16
  | reduce => 17
  | allreduce => 18
  | col => 19
  | waitall _ => 20
  | wait _ => 21
  | waitsome => 22
  | waitany => 23
  | mark _ => 34
  | invalid n => n

/-- The type as the queues know it. -/
def wkOp : WorkloadOp → WkOp
  | send _ => .send
  | recv _ => .recv
  | isend _ => .isend
  | irecv _ => .irecv
  | waitall _ => .waitall
  | wait _ => .wait
  | waitsome => .waitsome
  | waitany => .waitany
  | _ => .other

end WorkloadOp

/-- The operands of a receive with its type. -/
def P2p.recvOp (u : P2p) (opType : WkOp) : RecvOp where
  opType := opType
  sourceRank := u.sourceRank
  destRank := u.destRank
  numBytes := u.numBytes
  tag := u.tag
  reqId := u.reqId

/-! ### A rank -/

/-- The counters of `nw_state` that its queues do not use. -/
structure Tallies where
  isFinished : Bool
  (numSends numRecvs numCols numDelays numWait numWaitall numWaitsome : UInt64)
  (startTime colTime allReduceTime : STime)
  numAllReduce : ℤ
  elapsedTime : STime
  computeTime : STime
  numBytesSent : UInt64
  /-- The same in `ross_sample`. -/
  sampleNumSends : UInt64
  sampleNumRecvs : UInt64
  sampleNumBytesSent : UInt64
  sampleComputeTime : STime

/-- What happened in an interval (`mpi_workload_sample`). -/
structure WkldSample where
  nwId : Lpid
  appId : ℤ
  (numSendsSample numBytesSample numWaitsSample : UInt64)
  sampleEndTime : STime

/-- The fields of `nw_state` for sampling. -/
structure Sampling where
  samples : ℤ → WkldSample
  samplingIndx : ℤ
  maxArrSize : ℤ
  curIntervalEnd : STime

/-- A rank (`nw_state`). -/
structure Rank where
  s : NwState
  t : Tallies
  sampling : Sampling
  nwId : Lpid
  localRank : ℤ
  wrkldId : ℕ
  /-- `director_enabled` is 1. -/
  directorEnabled : Bool
  directorLpid : Lpid
  /-- `SIM_MODE_ITERATION_SURROGATE`. -/
  iterationSurrogate : Bool

/-- The surroundings of a rank and the options of the replay. -/
structure RankCtx extends ReplayCtx where
  disableDelay : Bool
  computeTimeSpeedup : STime
  enableSampling : Bool
  samplingInterval : STime
  /-- What `memcpy` of `sampling_indx` bytes leaves of the samples in a new array. -/
  copySamples : ℤ → (ℤ → WkldSample) → ℤ → WkldSample

/-- A rank that replays a trace, as `nw_test_init` sets it up without a director. -/
def Rank.init (c : RankCtx) (nwId : Lpid) (appId localRank qosLevel : ℤ) (wrkldId : ℕ) : Rank where
  s :=
    { appId := appId, qosLevel := qosLevel
      recvTime := 0, waitTime := 0, numBytesRecvd := 0, sample := ⟨0, 0, 0⟩
      arrivalQueue := [], pendingRecvsQueue := [], completedReqs := [], waitOp := none
      msgSzList := [], processedOps := [], processedWaitOp := [], matchedReqs := [] }
  t :=
    { isFinished := false
      numSends := 0, numRecvs := 0, numCols := 0, numDelays := 0
      numWait := 0, numWaitall := 0, numWaitsome := 0
      startTime := c.now, colTime := 0, allReduceTime := 0, numAllReduce := 0
      elapsedTime := 0, computeTime := 0, numBytesSent := 0
      sampleNumSends := 0, sampleNumRecvs := 0, sampleNumBytesSent := 0, sampleComputeTime := 0 }
  sampling :=
    { samples := fun _ => ⟨0, 0, 0, 0, 0, 0⟩
      samplingIndx := 0
      maxArrSize := if c.enableSampling ∧ c.samplingInterval > 0 then 65536 else 0
      curIntervalEnd :=
        if c.enableSampling ∧ c.samplingInterval > 0 then c.samplingInterval else 0 }
  nwId := nwId
  localRank := localRank
  wrkldId := wrkldId
  directorEnabled := false
  directorLpid := 0
  iterationSurrogate := false

/-- A message handed to model-net: the fields of `nw_message` that are set. -/
structure SentMsg where
  opType : WkOp
  simStartTime : STime
  srcRank : Lpid
  destRank : ℤ
  numBytes : ℤ
  reqId : UInt32
  (matchedReq tag appId : ℤ)
  rendSend : Bool
  deriving DecidableEq

/-- The message as it arrives. -/
def SentMsg.nwMsg (m : SentMsg) : NwMsg where
  opType := m.opType
  srcRank := m.srcRank
  destRank := m.destRank
  numBytes := m.numBytes
  numMatched := 0
  simStartTime := m.simStartTime
  reqId := m.reqId
  matchedReq := m.matchedReq
  tag := m.tag
  appId := m.appId
  foundMatch := 0
  waitCompleted := 0
  rc := ⟨0, 0, 0, 0, 0⟩

/-- What a rank sends. -/
inductive RankOut where
  /-- Something the queues send. -/
  | queues (o : NwOut)
  /-- `MPI_OP_GET_NEXT` to this LP when a delay is over. -/
  | getNextAfter (ts : STime)
  /-- A short message, and `MPI_SEND_POSTED` to this LP when it has left. -/
  | eager (prio : String) (dest : Lpid) (msg : SentMsg)
  /-- The announcement of a long message. -/
  | control (prio : String) (dest : Lpid) (msg : SentMsg)
  /-- The data of a long message (`MPI_REND_ARRIVED`), and `MPI_SEND_POSTED` to this LP. -/
  | rendezvous (prio : String) (dest : Lpid) (msg : SentMsg)
  /-- `CLI_NBR_FINISH`. -/
  | nbrFinish (dest : Lpid)
  /-- `DIR_AN_ITER_MARK`. -/
  | directorMark (dest : Lpid) (value : ℤ)
  /-- `DIR_OP_NW`. -/
  | directorOp (dest : Lpid) (opType : ℕ)

/-- The bits of `tw_bf` that the queues do not use. -/
structure OpBf where
  (c2 c3 c4 c14 c15 c16 c17 c18 c19 c27 c28 : Bool)

/-- A handler at work on a rank. -/
structure Work where
  r : Rank
  m : NwMsg
  /-- `mpi_op`. -/
  op : WorkloadOp
  /-- `mpi_ack.saved_num_bytes`. -/
  savedNumBytes : ℤ
  bf : NwBf
  obf : OpBf
  outs : List RankOut

/-- The bit field at the start of an event. -/
def OpBf.zero : OpBf :=
  ⟨false, false, false, false, false, false, false, false, false, false, false⟩

namespace Work

/-- A handler starts: `memset` clears the bit field. -/
def start (r : Rank) (m : NwMsg) : Work :=
  ⟨r, m, .invalid 0, 0, ⟨false, false, false, false, false, false, false, false, false⟩, .zero, []⟩

/-- The part of the queues. -/
def ev (w : Work) : Ev := ⟨w.r.s, w.m, w.bf, []⟩

/-- The part of the queues is done. -/
def withEv (w : Work) (e : Ev) : Work :=
  { w with r := { w.r with s := e.s }, m := e.m, bf := e.bf, outs := w.outs ++ e.outs.map .queues }

def setTallies (w : Work) (f : Tallies → Tallies) : Work :=
    { w with r := { w.r with t := f w.r.t } }

def setSampling (w : Work) (f : Sampling → Sampling) : Work :=
  { w with r := { w.r with sampling := f w.r.sampling } }

def setRc (w : Work) (f : RcArea → RcArea) : Work := { w with m := w.m.setRc f }

def setBf (w : Work) (f : NwBf → NwBf) : Work := { w with bf := f w.bf }

def setOpBf (w : Work) (f : OpBf → OpBf) : Work := { w with obf := f w.obf }

def send (w : Work) (o : RankOut) : Work := { w with outs := w.outs ++ [o] }

/-- `codes_issue_next_event`. -/
def issueNext (w : Work) : Work := w.send (.queues .getNext)

end Work

/-- `MAX_STATS`. -/
def maxStats : ℤ := 65536

/-- `MAX_WAIT_REQS`. -/
def maxWaitReqs : ℕ := 2048

/-! ### Waits -/

/-- `codes_exec_mpi_wait`. -/
def codesExecMpiWait (now : STime) (e : Ev) (reqId : UInt32) : Except String Ev :=
  match e.s.waitOp with
  | some _ => .error "!s->wait_op"
  | none =>
    match firstMatch (fun r => r == reqId) 0 e.s.completedReqs with
    | some (index, current) =>
      let e := e.setBf fun b => { b with c1 := true }
      let e := e.setState fun s =>
        { s with
          completedReqs := s.completedReqs.eraseIdx index
          processedOps := .req current :: s.processedOps }
      .ok ((codesIssueNextEvent e).setMsg fun m => { m with foundMatch := index })
    | none => .ok (e.setState fun s => { s with waitOp := some ⟨.wait, [reqId], 0, now⟩ })

/-- The requests among the completed ones, each as often as it is there. -/
def countMatched (completed reqIds : List UInt32) : ℕ := (reqIds.map completed.count).sum

/-- `codes_exec_mpi_wait_all`, less the sample. -/
def codesExecMpiWaitAll (now : STime) (e : Ev) (reqIds : List UInt32) : Except String Ev :=
  if reqIds.length ≥ maxWaitReqs then .error "count < MAX_WAIT_REQS"
  else
    let numMatched := countMatched e.s.completedReqs reqIds
    let e := e.setMsg fun m => { m with numMatched := 0, foundMatch := numMatched }
    if numMatched = reqIds.length then
      let r := clearCompleted reqIds 0 e.s.completedReqs []
      let e := e.setMsg fun m => { m with numMatched := r.2.length }
      .ok (codesIssueNextEvent (e.setState fun s =>
        { s with completedReqs := r.1, matchedReqs := r.2 ++ s.matchedReqs, waitOp := none }))
    else
      .ok (e.setState fun s => { s with waitOp := some ⟨.waitall, reqIds, numMatched, now⟩ })

/-! ### Samples -/

/-- An interval is over. -/
def closeInterval (c : RankCtx) (w : Work) : Work :=
  w.setSampling fun p =>
    { p with
      samples := Function.update p.samples p.samplingIndx
        { p.samples p.samplingIndx with
          nwId := w.r.nwId, appId := w.r.s.appId, sampleEndTime := p.curIntervalEnd }
      samplingIndx := p.samplingIndx + 1
      curIntervalEnd := p.curIntervalEnd + c.samplingInterval }

/-- The array of samples is full. -/
def growSamples (c : RankCtx) (w : Work) : Work :=
  if w.r.sampling.samplingIndx ≥ maxStats then
    w.setSampling fun p =>
      { p with samples := c.copySamples p.samplingIndx p.samples, maxArrSize :=
        p.maxArrSize + maxStats }
  else w

/-- The current sample changes. -/
def updateSample (w : Work) (f : WkldSample → WkldSample) : Work :=
  w.setSampling fun p =>
    { p with samples := Function.update p.samples p.samplingIndx (f (p.samples p.samplingIndx)) }

/-- A send is sampled. -/
def sampleSend (c : RankCtx) (w : Work) (numBytes : ℤ) : Work :=
  if c.enableSampling then
    let w :=
      if c.now ≥ w.r.sampling.curIntervalEnd then
        closeInterval c (w.setBf fun b => { b with c1 := true })
      else w
    updateSample (growSamples c w) fun x =>
      { x with
        numSendsSample := x.numSendsSample + 1
        numBytesSample := x.numBytesSample + UInt64.ofInt numBytes }
  else w

/-- A wait for several requests is sampled. -/
def sampleWaits (c : RankCtx) (w : Work) : Work :=
  if c.enableSampling then
    let w := w.setBf fun b => { b with c1 := true }
    let w :=
      if c.now ≥ w.r.sampling.curIntervalEnd then
        closeInterval c (w.setOpBf fun b => { b with c2 := true })
      else w
    updateSample (growSamples c w) fun x => { x with numWaitsSample := x.numWaitsSample + 1 }
  else w

/-- A handler with other samples. -/
def Work.withSampling (w : Work) (p : Sampling) (b : NwBf) : Work :=
  { w with r := { w.r with sampling := p }, bf := b }

theorem growSamples_frame (c : RankCtx) (w : Work) :
    ∃ p, growSamples c w = w.withSampling p w.bf := by
  unfold growSamples
  split_ifs
  · exact ⟨_, rfl⟩
  · exact ⟨w.r.sampling, rfl⟩

theorem sampleSend_frame (c : RankCtx) (w : Work) (n : ℤ) :
    ∃ p b, sampleSend c w n = w.withSampling p b := by
  unfold sampleSend
  dsimp only
  split_ifs
  · obtain ⟨p, hp⟩ := growSamples_frame c (closeInterval c (w.setBf fun b => { b with c1 := true }))
    rw [hp]
    exact ⟨_, _, rfl⟩
  · obtain ⟨p, hp⟩ := growSamples_frame c w
    rw [hp]
    exact ⟨_, _, rfl⟩
  · exact ⟨w.r.sampling, w.bf, rfl⟩

theorem sampleWaits_frame (c : RankCtx) (w : Work) :
    ∃ p b c2, sampleWaits c w = (w.withSampling p b).setOpBf fun x => { x with c2 := c2 } := by
  unfold sampleWaits
  dsimp only
  split_ifs
  · obtain ⟨p, hp⟩ := growSamples_frame c (closeInterval c ((w.setBf fun b =>
      { b with c1 := true }).setOpBf fun b => { b with c2 := true }))
    rw [hp]
    exact ⟨_, _, true, rfl⟩
  · obtain ⟨p, hp⟩ := growSamples_frame c (w.setBf fun b => { b with c1 := true })
    rw [hp]
    exact ⟨_, _, w.obf.c2, rfl⟩
  · exact ⟨w.r.sampling, w.bf, w.obf.c2, rfl⟩

/-! ### Sends -/

/-- A send is counted. -/
def countSend (w : Work) : Work :=
  w.setTallies fun t =>
    { t with numSends := t.numSends + 1, sampleNumSends := t.sampleNumSends + 1 }

/-- Bytes that are sent are counted. -/
def countSent (w : Work) (numBytes : ℤ) : Work :=
  (w.setOpBf fun b => { b with c3 := true }).setTallies fun t =>
    { t with
      numBytesSent := t.numBytesSent + UInt64.ofInt numBytes
      sampleNumBytesSent := t.sampleNumBytesSent + UInt64.ofInt numBytes }

/-- The message of a send. -/
def sentMsg (w : Work) (opType : WkOp) (u : P2p) (simStartTime : STime) : SentMsg where
  opType := opType
  simStartTime := simStartTime
  srcRank := ofInt u.sourceRank
  destRank := u.destRank
  numBytes := u.numBytes
  reqId := u.reqId
  matchedReq := w.m.matchedReq
  tag := u.tag
  appId := w.r.s.appId
  rendSend := false

/-- Hand a message to model-net: all of it if it is short, else its announcement or, when a receive
waits for it, its data. -/
def sendMessage (c : RankCtx) (w : Work) (prio : String) (dest : Lpid) (opType : WkOp) (u : P2p)
    (simStartTime : STime) (isRend : Bool) : Work :=
  if u.numBytes < c.eagerThreshold then
    (countSend (w.setOpBf fun b => { b with c15 := true })).send
      (.eager prio dest (sentMsg w opType u c.now))
  else if isRend = false then
    (countSend (w.setOpBf fun b => { b with c16 := true })).send
      (.control prio dest { sentMsg w opType u c.now with matchedReq := 0 })
  else
    (w.setOpBf fun b => { b with c17 := true }).send
      (.rendezvous prio dest { sentMsg w opType u simStartTime with rendSend := true })

/-- `codes_exec_mpi_send`. -/
def codesExecMpiSend (c : RankCtx) (w : Work) (opType : WkOp) (u : P2p) (simStartTime : STime)
    (isRend : Bool) : Except String Work :=
  let w := w.setOpBf fun b => { b with c3 := false, c4 := false }
  let w := w.setBf fun b => { b with c1 := false }
  match qosPrio w.r.s.qosLevel with
  | none => .error ("\n Invalid QoS level: " ++ toString w.r.s.qosLevel)
  | some prio =>
    let collective := u.tag = colTag ∨ u.tag = barTag
    let prio := if c.prioritizeCollectives ∧ collective then "high" else prio
    let w := { w with savedNumBytes := u.numBytes }
    match rankToLpid c.toReplayCtx (globalRank c.toReplayCtx w.r.s.appId u.destRank) with
    | .error text => .error text
    | .ok dest =>
      let isEager : Bool := u.numBytes < c.eagerThreshold
      let w := sendMessage c (sampleSend c w u.numBytes) prio dest opType u simStartTime isRend
      let w := if isRend ∨ isEager then countSent w u.numBytes else w
      .ok (if opType = .isend ∧ (isRend = false ∨ isEager) then
        (w.setOpBf fun b => { b with c4 := true }).issueNext
      else w)

/-! ### The other operations -/

/-- `codes_exec_comp_delay`. -/
def codesExecCompDelay (c : RankCtx) (w : Work) (nsecs : STime) : Work :=
  let w := w.setOpBf fun b => { b with c28 := false }
  let w := w.setRc fun rc => { rc with w1 := w.r.t.computeTime, w2 := w.r.t.sampleComputeTime }
  let ts := nsecs / c.computeTimeSpeedup
  let w := w.setTallies fun t =>
    { t with computeTime := t.computeTime + ts, sampleComputeTime := t.sampleComputeTime + ts }
  w.send (.getNextAfter (if ts < 0 then 0 else ts))

/-- The end of the trace. -/
def execEnd (c : RankCtx) (w : Work) : Except String Work :=
  let w := w.setRc fun rc => { rc with w0 := w.r.t.elapsedTime }
  let w := w.setTallies fun t =>
    { t with elapsedTime := c.now - t.startTime, isFinished := true }
  match c.globalIdOfJobRank with
  | none => .ok (w.setBf fun b => { b with c9 := true })
  | some toGlobalId =>
    let w := w.setRc fun rc => { rc with w1 := c.now }
    match rankToLpid c.toReplayCtx (toGlobalId w.r.s.appId 0) with
    | .error text => .error text
    | .ok dest => .ok (w.send (.nbrFinish dest))

/-- A marker of an iteration. -/
def execMark (c : RankCtx) (w : Work) (tag : ℤ) : Work :=
  let w := w.setRc fun rc => { rc with w1 := c.now }
  if w.r.directorEnabled then
    (w.setOpBf fun b => { b with c14 := true }).send (.directorMark w.r.directorLpid tag)
  else w.issueNext

/-- A reduction for all ranks: every second one closes an interval of time. -/
def execAllreduce (c : RankCtx) (w : Work) : Work :=
  let w := w.setTallies fun t => { t with numCols := t.numCols + 1 }
  if w.r.t.colTime > 0 then
    let w := w.setOpBf fun b => { b with c27 := true }
    let w := w.setRc fun rc => { rc with w1 := w.r.t.colTime, w2 := w.r.t.allReduceTime }
    (w.setTallies fun t =>
      { t with
        allReduceTime := t.allReduceTime + (c.now - t.colTime)
        colTime := 0
        numAllReduce := t.numAllReduce + 1 }).issueNext
  else (w.setTallies fun t => { t with colTime := c.now }).issueNext

/-- Collective operations that are only counted. -/
def execCol (w : Work) : Work :=
  (w.setTallies fun t => { t with numCols := t.numCols + 1 }).issueNext

/-- Waits that are only counted. -/
def execWaitsome (w : Work) : Work :=
  (w.setTallies fun t => { t with numWaitsome := t.numWaitsome + 1 }).issueNext

/-- A receive of either kind. -/
def execRecv (c : RankCtx) (w : Work) (opType : WkOp) (u : P2p) : Except String Work :=
  let w := w.setTallies fun t =>
    { t with numRecvs := t.numRecvs + 1, sampleNumRecvs := t.sampleNumRecvs + 1 }
  (codesExecMpiRecv c.toReplayCtx w.ev (u.recvOp opType)).map w.withEv

/-- The switch of `get_next_mpi_operation`. -/
def execOp (c : RankCtx) (w : Work) : WorkloadOp → Except String Work
  | .wkEnd => execEnd c w
  | .mark tag => .ok (execMark c w tag)
  | .send u => codesExecMpiSend c w .send u 0 false
  | .isend u => codesExecMpiSend c w .isend u 0 false
  | .recv u => execRecv c w .recv u
  | .irecv u => execRecv c w .irecv u
  | .delay nsecs =>
    let w := w.setTallies fun t => { t with numDelays := t.numDelays + 1 }
    .ok (if c.disableDelay then w.issueNext else codesExecCompDelay c w nsecs)
  | .waitsome | .waitany => .ok (execWaitsome w)
  | .waitall reqIds =>
    let w := sampleWaits c (w.setTallies fun t => { t with numWaitall := t.numWaitall + 1 })
    (codesExecMpiWaitAll c.now w.ev reqIds).map w.withEv
  | .wait reqId =>
    let w := w.setTallies fun t => { t with numWait := t.numWait + 1 }
    (codesExecMpiWait c.now w.ev reqId).map w.withEv
  | .allreduce => .ok (execAllreduce c w)
  | .reduce | .bcast | .allgather | .allgatherv | .alltoall | .alltoallv | .col => .ok (execCol w)
  | .invalid _ => .ok w

/-- The operation is the end of the trace or a marker. -/
def WorkloadOp.isBoundary : WorkloadOp → Bool
  | .wkEnd | .mark _ => true
  | _ => false

/-- `get_next_mpi_operation`, when the trace has handed out the operation. -/
def execMpiOp (c : RankCtx) (w : Work) (op : WorkloadOp) : Except String Work :=
  let w := w.setOpBf fun b => { b with c14 := false, c18 := false }
  let w := { w with op := op, m := { w.m with opType := op.wkOp } }
  if op.isBoundary = false ∧ w.r.iterationSurrogate ∧ w.r.directorEnabled then
    .ok ((w.setOpBf fun b => { b with c18 := true }).send
      (.directorOp w.r.directorLpid op.opType))
  else execOp c w op

/-! ### Events -/

/-- An event of a rank.  With `MPI_OP_GET_NEXT` comes the operation that the trace hands out. -/
inductive NwEvent where
  /-- `MPI_SEND_ARRIVED`. -/
  | sendArrived (m : NwMsg)
  /-- `MPI_REND_ARRIVED`. -/
  | rendArrived (m : NwMsg)
  /-- `MPI_REND_ACK_ARRIVED`. -/
  | rendAckArrived (a : AckMsg)
  /-- `MPI_SEND_POSTED`. -/
  | sendPosted (m : NwMsg) (rendSend : Bool)
  /-- `MPI_OP_GET_NEXT`. -/
  | getNext (m : NwMsg) (op : WorkloadOp)

/-- An acknowledgement as it arrives. -/
def AckMsg.nwMsg (a : AckMsg) : NwMsg where
  opType := a.opType
  srcRank := ofInt a.srcRank
  destRank := a.destRank
  numBytes := a.numBytes
  numMatched := 0
  simStartTime := a.simStartTime
  reqId := a.reqId
  matchedReq := a.matchedReq
  tag := a.tag
  appId := 0
  foundMatch := 0
  waitCompleted := 0
  rc := ⟨0, 0, 0, 0, 0⟩

/-- The operands of the send that an acknowledgement is for. -/
def AckMsg.p2p (a : AckMsg) : P2p := ⟨a.srcRank, a.destRank, a.numBytes, a.tag, a.reqId⟩

/-- `MPI_REND_ARRIVED`: the data of a long message complete a request or end a blocking receive. -/
def handleRendArrived (c : ReplayCtx) (e : Ev) : Except String Ev :=
  let e := if c.enableMsgTracking then updateMessageSize c.now e e.m.entry true else e
  match rankToLpid c (globalRank c e.s.appId (toInt e.m.srcRank)) with
  | .error text => .error text
  | .ok dest =>
    let e := e.send (.arrivedCb dest (c.now - e.m.simStartTime))
    let e :=
      if e.m.matchedReq ≥ 0 then
        updateCompletedQueue c.now (e.setBf fun b => { b with c8 := true })
          (UInt32.ofInt e.m.matchedReq)
      else codesIssueNextEvent (e.setBf fun b => { b with c10 := true })
    .ok (addRecvTime (saveRecvTimeSend e) (c.now - e.m.simStartTime))

/-- `MPI_SEND_POSTED`: a send is over on the side of the sender. -/
def handleSendPosted (c : ReplayCtx) (w : Work) (rendSend : Bool) : Work :=
  let isEager : Bool := w.m.numBytes < c.eagerThreshold
  if w.m.opType = .send ∧ (isEager ∨ rendSend) then
    (w.setBf fun b => { b with c29 := true }).issueNext
  else if w.m.opType = .isend ∧ (isEager ∨ rendSend) then
    let w := w.setOpBf fun b => { b with c28 := true }
    w.withEv (updateCompletedQueue c.now w.ev w.m.reqId)
  else w

/-- How many entries of each stack for rollback are not older than GVT. -/
structure Kept where
  (matchedReqs processedOps processedWaitOp : ℕ)

/-- `rc_stack_gc` on the three stacks. -/
def Rank.gc (k : Kept) (r : Rank) : Rank :=
  { r with
    s := { r.s with
      matchedReqs := r.s.matchedReqs.take k.matchedReqs
      processedOps := r.s.processedOps.take k.processedOps
      processedWaitOp := r.s.processedWaitOp.take k.processedWaitOp } }

/-- The message of an event. -/
def NwEvent.msg : NwEvent → NwMsg
  | sendArrived m => m
  | rendArrived m => m
  | rendAckArrived a => a.nwMsg
  | sendPosted m _ => m
  | getNext m _ => m

/-- `nw_test_event_handler`, for the events of `NwEvent`. -/
def nwTestEventHandler (c : RankCtx) (k : Kept) (r : Rank) (event : NwEvent) : Except String Work :=
  if r.s.appId ≥ 0 ∧ r.localRank ≥ 0 then
    let w := Work.start (r.gc k) event.msg
    match event with
    | .sendArrived _ => (updateArrivalQueue c.toReplayCtx w.ev).map w.withEv
    | .rendArrived _ => (handleRendArrived c.toReplayCtx w.ev).map w.withEv
    | .rendAckArrived a => codesExecMpiSend c w a.opType a.p2p a.simStartTime true
    | .sendPosted _ rendSend => .ok (handleSendPosted c.toReplayCtx w rendSend)
    | .getNext _ op => execMpiOp c w op
  else .error "s->app_id >= 0 && s->local_rank >= 0"

end CodesSim.Replay
