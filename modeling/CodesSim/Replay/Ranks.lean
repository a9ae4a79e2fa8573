import CodesSim.Lib.Network
import CodesSim.Replay.Handler

/-!
# Ranks that replay their traces

All LPs of the MPI replay with the events between them.  A rank works on one operation at a time, as
if it had a token that says where its trace goes on: with `MPI_OP_GET_NEXT`, with a wait, with a
receive or a send that blocks, or not at all when the trace has ended (`tokens`).

* model-net delivers what it is handed, and tells the sender that it has left, in any order.
* Beside an acknowledgement and the data of a long message goes the receive that waits for them.  No
  handler looks at it: `MPI_REND_ARRIVED` takes the sign of the request for the kind of the receive.
* Notices about the time of a message and about the end of a trace are left out.
-/

namespace CodesSim.Replay

open CodesMapping LpSystem

/-- The jobs of a simulation: the LPs that replay a trace, each for a rank of a job. -/
structure Jobs where
  ctx : RankCtx
  lps : List Lpid
  (appId localRank qosLevel : Lpid → ℤ)
  trace : Lpid → List WorkloadOp
  nodup : lps.Nodup
  localRank_nonneg : ∀ d ∈ lps, 0 ≤ localRank d
  localRank_lt : ∀ d ∈ lps, localRank d < 2 ^ 31
  /-- The LP of a rank of a job is found again. -/
  lpid : ∀ d ∈ lps,
    rankToLpid ctx.toReplayCtx (globalRank ctx.toReplayCtx (appId d) (localRank d)) = .ok d
  /-- Sends name the rank that sends. -/
  sender : ∀ d ∈ lps, ∀ u, .send u ∈ trace d ∨ .isend u ∈ trace d → u.sourceRank = localRank d
  /-- The replay knows the operations. -/
  known : ∀ d ∈ lps, ∀ n, .invalid n ∉ trace d

/-- The LP of a rank of a job. -/
def Jobs.lpidOf (jobs : Jobs) (appId rank : ℤ) : Except String Lpid :=
  rankToLpid jobs.ctx.toReplayCtx (globalRank jobs.ctx.toReplayCtx appId rank)

/-- The events of the ranks. -/
inductive Event where
  /-- `MPI_OP_GET_NEXT`. -/
  | getNext
  /-- `MPI_SEND_ARRIVED`. -/
  | sendArrived (m : SentMsg)
  /-- `MPI_SEND_POSTED`. -/
  | sendPosted (m : SentMsg)
  /-- `MPI_REND_ACK_ARRIVED`, for a receive. -/
  | rendAck (a : AckMsg) (recv : QMsg)
  /-- `MPI_REND_ARRIVED`, for a receive. -/
  | rendArrived (m : SentMsg) (recv : QMsg)
  deriving DecidableEq

/-- Events with the LPs they go to. -/
abbrev Events := List (Lpid × Event)

/-- A rank with the rest of its trace. -/
structure Node where
  r : Rank
  trace : List WorkloadOp
  /-- How often the data for a blocking receive have come and the rank did not go on. -/
  stalled : ℕ

/-- What a handler finds around it. -/
structure Env where
  now : STime
  kept : Kept

namespace Jobs

variable (jobs : Jobs)

/-- The surroundings of a rank at a time. -/
def atTime (now : STime) : RankCtx := { jobs.ctx with now := now }

/-- An event without contents. -/
def blank : NwMsg where
  opType := .other
  srcRank := 0
  destRank := 0
  numBytes := 0
  numMatched := 0
  simStartTime := 0
  reqId := 0
  matchedReq := 0
  tag := 0
  appId := 0
  foundMatch := 0
  waitCompleted := 0
  rc := ⟨0, 0, 0, 0, 0⟩

/-- The operation that a trace hands out. -/
def nextOp (trace : List WorkloadOp) : WorkloadOp := trace.headD .wkEnd

/-- The event for the handler of the rank. -/
def nwEvent (node : Node) : Event → NwEvent
  | .getNext => .getNext blank (nextOp node.trace)
  | .sendArrived m => .sendArrived m.nwMsg
  | .sendPosted m => .sendPosted m.nwMsg m.rendSend
  | .rendAck a _ => .rendAckArrived a
  | .rendArrived m _ => .rendArrived m.nwMsg

/-- The receive that is matched in an event, or that the event is about. -/
def receive (now : STime) (node : Node) : Event → QMsg
  | .getNext =>
    match nextOp node.trace with
    | .recv u => (u.recvOp .recv).entry now
    | .irecv u => (u.recvOp .irecv).entry now
    | _ => default
  | .sendArrived m =>
    match firstMatch (fun qi => fits qi m.nwMsg.entry) 0 node.r.s.pendingRecvsQueue with
    | some (_, qi) => qi
    | none => default
  | .sendPosted _ => default
  | .rendAck _ recv => recv
  | .rendArrived _ recv => recv

/-- The events that a rank sends. -/
def events (d : Lpid) (recv : QMsg) : RankOut → Events
  | .queues .getNext => [(d, .getNext)]
  | .queues (.arrivedCb _ _) => []
  | .queues (.ack _ dest a) => [(dest, .rendAck a recv)]
  | .getNextAfter _ => [(d, .getNext)]
  | .eager _ dest m => [(dest, .sendArrived m), (d, .sendPosted m)]
  | .control _ dest m => [(dest, .sendArrived m)]
  | .rendezvous _ dest m => [(dest, .rendArrived m recv), (d, .sendPosted m)]
  | .nbrFinish _ => []
  | .directorMark _ _ => []
  | .directorOp _ _ => []

/-- The rest of the trace. -/
def traceAfter (node : Node) : Event → List WorkloadOp
  | .getNext => node.trace.tail
  | _ => node.trace

/-- The data for a blocking receive have come. -/
def IsPayload : Event → Prop
  | .rendArrived _ recv => recv.opType = .recv
  | _ => False

instance : DecidablePred IsPayload := fun e => by
  unfold IsPayload
  cases e <;> infer_instance

/-- A rank handles an event. -/
def handle (ω : Env) (d : Lpid) (node : Node) (e : Event) : Option (Node × Events) :=
  match nwTestEventHandler (jobs.atTime ω.now) ω.kept node.r (nwEvent node e) with
  | .error _ => none
  | .ok w =>
    let outs := w.outs.flatMap (events d (receive ω.now node e))
    some ({
      r := w.r
      trace := traceAfter node e
      stalled :=
        if IsPayload e ∧ (d, .getNext) ∉ outs then node.stalled + 1 else node.stalled }, outs)

/-- The ranks. -/
def system : LpSystem (fun _ : Lpid => Node) Event Env := ⟨fun ω d => jobs.handle ω d⟩

/-- At the beginning: `nw_test_init` gives an LP that replays no trace the application -1. -/
def init : Net (fun _ : Lpid => Node) Event where
  nodes d :=
    if d ∈ jobs.lps then
      ⟨.init jobs.ctx 0 (jobs.appId d) (jobs.localRank d) (jobs.qosLevel d) 0, jobs.trace d, 0⟩
    else ⟨.init jobs.ctx 0 (-1) (-1) 0 0, [], 0⟩
  inFlight := jobs.lps.map fun d => (d, .getNext)

/-! ### The token -/

/-- The announcement of a long message of a blocking send waits in the queue of an LP of an
application; the sender is LP `t`. -/
def announced (t : Lpid) (appId : ℤ) (q : QMsg) : Bool :=
  q.opType = .send ∧ jobs.ctx.eagerThreshold ≤ q.numBytes ∧ jobs.lpidOf appId q.sourceRank = .ok t

/-- The tokens that a rank holds itself: it waits, it has finished, or a blocking receive is not
matched. -/
def own (r : Rank) : ℕ :=
  (if r.s.waitOp.isSome then 1 else 0) + (if r.t.isFinished then 1 else 0) +
    r.s.pendingRecvsQueue.countP fun q => q.opType = .recv

/-- The tokens of LP `t` that LP `d` holds. -/
def held (t d : Lpid) (r : Rank) : ℕ :=
  (if d = t then own r else 0) + r.s.arrivalQueue.countP (jobs.announced t (jobs.appId d))

/-- The tokens of LP `t` that an event brings to LP `d`: the next operation, the local completion of
a blocking send or what it still needs, or the data of a blocking receive or the request for
them. -/
def carried (t d : Lpid) : Event → ℕ
  | .getNext => if d = t then 1 else 0
  | .sendArrived m =>
    if m.opType = .send ∧ jobs.ctx.eagerThreshold ≤ m.numBytes ∧
      jobs.lpidOf m.appId (toInt m.srcRank) = .ok t then 1 else 0
  | .sendPosted m => if m.opType = .send ∧ d = t then 1 else 0
  | .rendAck a recv => (if a.opType = .send ∧ d = t then 1 else 0) +
      if recv.opType = .recv ∧ jobs.lpidOf (jobs.appId d) a.destRank = .ok t then 1 else 0
  | .rendArrived _ recv => if recv.opType = .recv ∧ d = t then 1 else 0

/-- The tokens of LP `t`. -/
def tokens (t : Lpid) (net : Net (fun _ : Lpid => Node) Event) : ℕ :=
  nodeSum jobs.lps.toFinset (fun d node => jobs.held t d node.r) net + flightSum (jobs.carried t)
    net.inFlight

/-- **A single token.**  Each rank is at one place of its trace; no rank waits when the next
operation comes, as `codes_exec_mpi_wait` asserts; and the data for a blocking receive resume the
rank. -/
structure SingleToken (net : Net (fun _ : Lpid => Node) Event) : Prop where
  token : ∀ t ∈ jobs.lps, jobs.tokens t net = 1
  noWait : ∀ d, (d, .getNext) ∈ net.inFlight → (net.nodes d).r.s.waitOp = none
  resumed : ∀ d, (net.nodes d).stalled = 0

/-- **The condition.**  When the data of a long message come, the request of the receive is negative
as an `int` if the receive blocks, and only then. -/
def SignTells (net : Net (fun _ : Lpid => Node) Event) (l : NetLabel Lpid Event Env) : Prop :=
  ∀ d m recv, net.event l = some (d, .rendArrived m recv) →
    (reqInt recv.reqId < 0 ↔ recv.opType = .recv)

end Jobs

end CodesSim.Replay
