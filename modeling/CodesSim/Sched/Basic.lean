import CodesSim.Lib.Mem
import CodesSim.Mapping.Basic
import Mathlib.Data.Rat.Init

/-!
# The model-net packet schedulers

A model-net LP keeps the requests it has accepted in a scheduler and asks it for the next packet
to put on the wire (`model-net-sched-impl.c`).  There are three schedulers: first come first
served, round robin (the request at the front goes to the back after every packet) and a priority
scheduler over an array of the former.  Each operation has a reverse; a reverse is handed the
record (`SchedRc`) and the memory area in which the forward call saved what it destroyed.

* An operation that runs into `tw_error`, a failed assertion or an index out of range returns
  `none`.
* Byte counts are 64-bit words.
* The network behind the scheduler only sees the calls recorded in `MethodCall`.
-/

namespace CodesSim

/-- Simulated time (`tw_stime`), in exact arithmetic. -/
abbrev STime := ℚ

/-- The networks (`NETWORK_DEF`). -/
inductive NetId where
  | simplenet | simplep2p | torus | slimfly | slimflyRouter | fattree | dragonfly
  | dragonflyRouter | dragonflyCustom | dragonflyCustomRouter | loggp | expressMesh
  | expressMeshRouter | dragonflyPlus | dragonflyPlusRouter | dragonflyDally
  | dragonflyDallyRouter | congestionController
  deriving DecidableEq, Inhabited

/-! ### Requests and queues -/

/-- A request (`model_net_request`). -/
structure Request where
  (finalDestLp destMnLp srcLp : Lpid)
  msgStartTime : STime
  msgNewMnEvent : STime
  (msgSize pullSize packetSize : UInt64)
  /-- Number of the message, given by the model-net LP that accepts it. -/
  msgId : UInt64
  netId : NetId
  isPull : Bool
  queueOffset : ℕ
  remoteEventSize : ℤ
  selfEventSize : ℤ
  category : String
  appId : ℤ
  deriving DecidableEq, Inhabited

/-- Per-message scheduler parameters (`mn_sched_params`). -/
structure SchedParams where
  /-- Priority; `-1` asks for the lowest one. -/
  prio : ℤ
  deriving DecidableEq, Inhabited

/-- A queued request (`mn_sched_qitem`).  A payload is `none` where the source has `NULL`. -/
structure QItem where
  req : Request
  schedParams : SchedParams
  /-- Bytes still to send. -/
  rem : UInt64
  remoteEvent : Option (List UInt8)
  localEvent : Option (List UInt8)
  deriving DecidableEq

/-- The state of an FCFS or round-robin scheduler (`mn_sched_queue`). -/
structure Queue where
  isRecvQueue : Bool
  queueLen : ℤ
  reqs : List QItem
  deriving DecidableEq

/-- What a forward call saves for its reverse (`model_net_sched_rc`). -/
structure SchedRc where
  req : Request
  schedParams : SchedParams
  /-- Return code of the last `next`. -/
  rtn : ℤ
  /-- Sub-queue of the last priority operation. -/
  prio : ℤ
  deriving Inhabited

/-- A call of the network method made while issuing a packet. -/
inductive MethodCall where
  /-- `model_net_method_packet_event`. -/
  | packet (req : Request) (messageOffset packetSize : UInt64) (schedParams : SchedParams)
      (remoteEvent selfEvent : Option (List UInt8)) (isLastPckt isThereAnotherPcktInQueue : Bool)
  /-- `model_net_method_recv_msg_event`. -/
  | recvMsg (category : String) (finalDestLp destMnLp : Lpid) (msgSize : UInt64) (isPull : Bool)
      (pullSize : UInt64) (remoteEventSize : ℤ) (remoteEvent : Option (List UInt8)) (srcLp : Lpid)

/-- The outcome of `next` on a scheduler with state `σ`: the return code (`-1` nothing to do,
`0` packet issued, `1` last packet of a request issued), the new state, the filled record and
save area, and the call made on the network. -/
structure NextOut (σ : Type) where
  ret : ℤ
  state : σ
  rc : SchedRc
  save : Mem
  call : Option MethodCall

/-! ### First come first served -/

/-- `fcfs_init`. -/
def fcfsInit (isRecvQueue : Bool) : Queue := ⟨isRecvQueue, 0, []⟩

/-- The private copy of a payload of `size` bytes; no copy is made of an empty one. -/
def copyEvent (size : ℤ) (src : Mem) : Option (List UInt8) :=
  if size > 0 then some (src.read 0 size.toNat) else none

/-- `fcfs_add`. -/
def fcfsAdd (req : Request) (schedParams : SchedParams) (remoteEventSize : ℤ) (remoteEvent : Mem)
    (localEventSize : ℤ) (localEvent : Mem) (s : Queue) : Option Queue :=
  if req.remoteEventSize = remoteEventSize ∧ req.selfEventSize = localEventSize then
    let q : QItem :=
      { req := req, schedParams := schedParams, rem := req.msgSize,
        remoteEvent := copyEvent remoteEventSize remoteEvent,
        localEvent := copyEvent localEventSize localEvent }
    some { s with queueLen := s.queueLen + 1, reqs := s.reqs ++ [q] }
  else none

/-- `fcfs_add_rc`: drop the request at the back. -/
def fcfsAddRc (s : Queue) : Option Queue :=
  if s.reqs = [] then none
  else some { s with queueLen := s.queueLen - 1, reqs := s.reqs.dropLast }

/-- The next packet is the last one of the request. -/
def QItem.isLastPacket (q : QItem) : Bool := decide (q.req.packetSize ≥ q.rem)

/-- The size of the next packet of the request. -/
def QItem.psize (q : QItem) : UInt64 := if q.isLastPacket then q.rem else q.req.packetSize

/-- The call made on the network for the next packet of the request. -/
def QItem.call (q : QItem) (isRecvQueue isThereAnother : Bool) : MethodCall :=
  if isRecvQueue then
    .recvMsg q.req.category q.req.finalDestLp q.req.destMnLp q.psize q.req.isPull q.req.pullSize
      q.req.remoteEventSize q.remoteEvent q.req.srcLp
  else
    .packet q.req (q.req.msgSize - q.rem) q.psize q.schedParams q.remoteEvent q.localEvent
      q.isLastPacket isThereAnother

/-- The payloads of a finished request, saved one after the other. -/
def QItem.saveEvents (q : QItem) (save : Mem) : Mem :=
  let m := if q.req.remoteEventSize > 0 then save.write 0 (q.remoteEvent.getD []) else save
  let off := if q.req.remoteEventSize > 0 then q.req.remoteEventSize.toNat else 0
  if q.req.selfEventSize > 0 then m.write off (q.localEvent.getD []) else m

/-- `fcfs_next`. -/
def fcfsNext (s : Queue) (save : Mem) (rc : SchedRc) : NextOut Queue :=
  match s.reqs with
  | [] => { ret := -1, state := s, rc := { rc with rtn := -1 }, save := save, call := none }
  | q :: rest =>
    let call := q.call s.isRecvQueue (!q.isLastPacket || decide (s.queueLen > 1))
    if q.isLastPacket then
      { ret := 1, state := { s with queueLen := s.queueLen - 1, reqs := rest },
        rc := { rc with req := q.req, schedParams := q.schedParams, rtn := 1 },
        save := q.saveEvents save, call := some call }
    else
      { ret := 0, state := { s with reqs := { q with rem := q.rem - q.psize } :: rest },
        rc := { rc with rtn := 0 }, save := save, call := some call }

/-- The bytes a finished request had left before its last packet. -/
def lastRem (req : Request) : UInt64 :=
  let rem := req.msgSize % req.packetSize
  if rem = 0 ∧ req.msgSize ≠ 0 then req.packetSize else rem

/-- A finished request, rebuilt from the record and the save area. -/
def restoreItem (rc : SchedRc) (save : Mem) : QItem :=
  let off := if rc.req.remoteEventSize > 0 then rc.req.remoteEventSize.toNat else 0
  { req := rc.req, schedParams := rc.schedParams, rem := lastRem rc.req,
    remoteEvent := if rc.req.remoteEventSize > 0 then
      some (save.read 0 rc.req.remoteEventSize.toNat) else none,
    localEvent := if rc.req.selfEventSize > 0 then
      some (save.read off rc.req.selfEventSize.toNat) else none }

/-- `fcfs_next_rc`. -/
def fcfsNextRc (s : Queue) (save : Mem) (rc : SchedRc) : Option Queue :=
  if rc.rtn = -1 then some s
  else if rc.rtn = 0 then
    match s.reqs with
    | [] => none
    | q :: rest => some { s with reqs := { q with rem := q.rem + q.req.packetSize } :: rest }
  else if rc.rtn = 1 then
    some { s with queueLen := s.queueLen + 1, reqs := restoreItem rc save :: s.reqs }
  else none

/-! ### Round robin -/

/-- `rr_next`: as first come first served, but an unfinished request goes to the back. -/
def rrNext (s : Queue) (save : Mem) (rc : SchedRc) : NextOut Queue :=
  let o := fcfsNext s save rc
  if o.ret = -1 ∨ o.ret = 1 then o
  else
    match o.state.reqs with
    | [] => o
    | q :: rest => { o with state := { o.state with reqs := rest ++ [q] } }

/-- `rr_next_rc`: bring an unfinished request back to the front first. -/
def rrNextRc (s : Queue) (save : Mem) (rc : SchedRc) : Option Queue :=
  if rc.rtn = 0 then
    match s.reqs.getLast? with
    | none => none
    | some q => fcfsNextRc { s with reqs := q :: s.reqs.dropLast } save rc
  else fcfsNextRc s save rc

/-! ### The scheduler interface -/

/-- The two queue disciplines (`fcfs_tab`, `rr_tab`). -/
inductive Discipline where
  | fcfs
  | rr
  deriving DecidableEq

namespace Discipline

/-- The `next` of the discipline. -/
def next : Discipline → Queue → Mem → SchedRc → NextOut Queue
  | fcfs => fcfsNext
  | rr => rrNext

/-- The `next_rc` of the discipline. -/
def nextRc : Discipline → Queue → Mem → SchedRc → Option Queue
  | fcfs => fcfsNextRc
  | rr => rrNextRc

end Discipline

/-- The state of the priority scheduler (`mn_sched_prio`). -/
structure Prio where
  numPrios : ℕ
  /-- Discipline of the sub-queues. -/
  subSched : Discipline
  /-- One queue for each priority, the most urgent first. -/
  subScheds : List Queue
  deriving DecidableEq

/-- `prio_init`. -/
def prioInit (numPrios : ℕ) (subSched : Discipline) (isRecvQueue : Bool) : Prio :=
  ⟨numPrios, subSched, List.replicate numPrios (fcfsInit isRecvQueue)⟩

/-- The sub-queue a request goes to: the lowest priority by default. -/
def Prio.index (ss : Prio) (schedParams : SchedParams) : ℤ :=
  if schedParams.prio = -1 then ss.numPrios - 1 else schedParams.prio

/-- The sub-queue at an `int` index. -/
def Prio.sub? (ss : Prio) (i : ℤ) : Option Queue :=
  if i < 0 then none else ss.subScheds[i.toNat]?

/-- Replace the sub-queue at an `int` index. -/
def Prio.setSub (ss : Prio) (i : ℤ) (q : Queue) : Prio :=
  { ss with subScheds := ss.subScheds.set i.toNat q }

/-- `prio_add`: a priority out of range is an error. -/
def prioAdd (req : Request) (schedParams : SchedParams) (remoteEventSize : ℤ) (remoteEvent : Mem)
    (localEventSize : ℤ) (localEvent : Mem) (ss : Prio) (rc : SchedRc) : Option (Prio × SchedRc) :=
  let prio := ss.index schedParams
  if schedParams.prio ≠ -1 ∧ prio ≥ ss.numPrios then none
  else
    (ss.sub? prio).bind fun q =>
      (fcfsAdd req schedParams remoteEventSize remoteEvent localEventSize localEvent q).map
        fun q' => (ss.setSub prio q', { rc with prio := prio })

/-- `prio_add_rc`. -/
def prioAddRc (ss : Prio) (rc : SchedRc) : Option Prio :=
  (ss.sub? rc.prio).bind fun q => (fcfsAddRc q).map fun q' => ss.setSub rc.prio q'

/-- `prio_next`: the first sub-queue that is not empty gets the turn. -/
def prioNext (ss : Prio) (save : Mem) (rc : SchedRc) : NextOut Prio :=
  match ss.subScheds.findIdx? (fun q => !q.reqs.isEmpty) with
  | none => { ret := -1, state := ss, rc := { rc with prio := -1 }, save := save, call := none }
  | some i =>
    let o := ss.subSched.next (ss.subScheds.getD i (fcfsInit false)) save { rc with prio := i }
    { o with state := ss.setSub i o.state }

/-- `prio_next_rc`. -/
def prioNextRc (ss : Prio) (save : Mem) (rc : SchedRc) : Option Prio :=
  if rc.prio ≠ -1 then
    (ss.sub? rc.prio).bind fun q =>
      (ss.subSched.nextRc q save rc).map fun q' => ss.setSub rc.prio q'
  else some ss

/-- A scheduler (`model_net_sched`): the state together with the table of its functions. -/
inductive Sched where
  | queue (d : Discipline) (q : Queue)
  | prio (p : Prio)
  deriving DecidableEq

/-- Scheduler types (`sched_type`). -/
inductive SchedType where
  | fcfs | fcfsFull | rr | prio
  deriving DecidableEq

/-- Scheduler configuration (`model_net_sched_cfg_params`); the last two are for the priority
scheduler only. -/
structure SchedCfg where
  type : SchedType
  numPrios : ℕ
  subSched : Discipline
  deriving DecidableEq

namespace Sched

/-- `model_net_sched_init`. -/
def init (cfg : SchedCfg) (isRecvQueue : Bool) : Sched :=
  match cfg.type with
  | .fcfs | .fcfsFull => .queue .fcfs (fcfsInit isRecvQueue)
  | .rr => .queue .rr (fcfsInit isRecvQueue)
  | .prio => .prio (prioInit cfg.numPrios cfg.subSched isRecvQueue)

/-- `model_net_sched_add`. -/
def add (req : Request) (schedParams : SchedParams) (remoteEventSize : ℤ) (remoteEvent : Mem)
    (localEventSize : ℤ) (localEvent : Mem) : Sched → SchedRc → Option (Sched × SchedRc)
  | .queue d q, rc =>
    (fcfsAdd req schedParams remoteEventSize remoteEvent localEventSize localEvent q).map
      fun q' => (.queue d q', rc)
  | .prio p, rc =>
    (prioAdd req schedParams remoteEventSize remoteEvent localEventSize localEvent p rc).map
      fun x => (.prio x.1, x.2)

/-- `model_net_sched_add_rc`. -/
def addRc : Sched → SchedRc → Option Sched
  | .queue d q, _ => (fcfsAddRc q).map (.queue d)
  | .prio p, rc => (prioAddRc p rc).map .prio

/-- `model_net_sched_next`. -/
def next : Sched → Mem → SchedRc → NextOut Sched
  | .queue d q, save, rc =>
    let o := d.next q save rc
    { o with state := .queue d o.state }
  | .prio p, save, rc =>
    let o := prioNext p save rc
    { o with state := .prio o.state }

/-- `model_net_sched_next_rc`. -/
def nextRc : Sched → Mem → SchedRc → Option Sched
  | .queue d q, save, rc => (d.nextRc q save rc).map (.queue d)
  | .prio p, save, rc => (prioNextRc p save rc).map .prio

/-- The queues of the scheduler. -/
def queues : Sched → List Queue
  | .queue _ q => [q]
  | .prio p => p.subScheds

/-- The scheduler holds no request. -/
def IsEmpty (s : Sched) : Prop := ∀ q ∈ s.queues, q.reqs = []

end Sched

end CodesSim
