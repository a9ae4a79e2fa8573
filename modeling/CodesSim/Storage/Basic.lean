import CodesSim.Sched.Basic
import CodesSim.Util.Callback
import CodesSim.Util.RcStack

/-!
# The local storage LP

A disk (`local-storage-model.c`).  Without a scheduler a request is started as it comes, and the
disk is busy until it has done all of them.  With a scheduler one request is started at a time; the
others wait in lanes by priority, and the completion of one starts the next.

* A failed assertion, an error and an index outside of an array have no result (`Fault`).
* Times are exact, and counters do not overflow.
* The latencies are drawn from a generator of the LP, of which only the number of draws is kept.
* What a waiting request is stored with is all that the code keeps of it (`lsm_sched_op_t`).
-/

namespace CodesSim.Storage

/-- Why there is no result. -/
inductive Fault where
  | assertion
  | twError
  /-- The disk has no rates. -/
  | noBin
  /-- There is no such lane. -/
  | noLane

/-- `CATEGORY_MAX`. -/
def categoryMax : ℕ := 12

/-- `lsm_stats_s`. -/
structure LsmStats where
  category : String
  (readCount readBytes readSeeks : ℤ)
  readTime : STime
  (writeCount writeBytes writeSeeks : ℤ)
  writeTime : STime

/-- A place that is not used. -/
def LsmStats.zero : LsmStats := ⟨"", 0, 0, 0, 0, 0, 0, 0, 0⟩

/-- What the disk does with requests of a size: one place of each array of `disk_model_s`. -/
structure Bin where
  requestSize : ℕ
  (writeRate readRate writeOverhead readOverhead writeSeek readSeek : STime)

/-- `disk_model_s`. -/
structure DiskModel where
  bins : List Bin
  /-- The number of lanes, or 0 for no scheduler. -/
  useSched : ℕ

/-- `lsm_message_data_s`. -/
structure Data where
  (object offset size : UInt64)
  category : String
  prio : ℤ
  deriving DecidableEq

/-- `lsm_event_t`. -/
inductive LsmEvent where
  | writeRequest
  | readRequest
  | writeCompletion
  | readCompletion
  deriving DecidableEq

/-- An event (`lsm_message_s`). -/
structure Msg where
  event : LsmEvent
  prio : ℤ
  prevIdle : STime
  prevStat : LsmStats
  prevOffset : Int64
  prevObject : UInt64
  data : Data
  cb : CbParams

/-- The state (`lsm_state_s` with `lsm_sched_s`), and the draws of `codes_local_latency`. -/
structure State where
  nextIdle : STime
  currentOffset : Int64
  currentObject : UInt64
  stats : List LsmStats
  useSched : Bool
  numPrios : ℕ
  activeCount : ℤ
  freelist : RcStack.Stack STime Data
  queues : ℕ → List Data
  draws : ℤ

/-- What a handler does outside of the state. -/
inductive Out where
  /-- A transfer is started, as a read or as a write (the call of `transfer_time`). -/
  | transfer (rw : Bool) (data : Data)
  /-- The event of the disk for its own completion. -/
  | completion (delay : STime) (m : Msg)
  /-- The answer to a caller. -/
  | callback (a : Answer ℤ)

/-- A handler at work. -/
structure Ev where
  s : State
  m : Msg
  outs : List Out

/-- `lsm_lp_init`. -/
def State.init (d : DiskModel) (protocol : RcStack.Protocol) (now : STime) : State where
  nextIdle := now
  currentOffset := 0
  currentObject := 0
  stats := List.replicate categoryMax LsmStats.zero
  useSched := 0 < d.useSched
  numPrios := d.useSched
  activeCount := 0
  freelist := RcStack.create protocol
  queues _ := []
  draws := 0

/-- The number of requests that are not completed changes. -/
def State.addActive (s : State) (n : ℤ) : State := { s with activeCount := s.activeCount + n }

def State.setQueue (s : State) (lane : ℕ) (l : List Data) : State :=
  { s with queues := Function.update s.queues lane l }

def State.setFreelist (s : State) (freelist : RcStack.Stack STime Data) : State :=
  { s with freelist := freelist }

/-- Draws that are made or taken back. -/
def State.draw (s : State) (n : ℤ) : State := { s with draws := s.draws + n }

/-- The lane of a priority. -/
def State.lane? (s : State) (prio : ℤ) : Option ℕ :=
  if 0 ≤ prio ∧ prio < s.numPrios then some prio.toNat else none

def Msg.setPrio (m : Msg) (prio : ℤ) : Msg := { m with prio := prio }

/-! ### Requests -/

/-- The arguments of `lsm_io_event`, and the priority of `lsm_set_event_priority`. -/
structure Io where
  category : String
  object : UInt64
  offset : Int64
  size : UInt64
  read : Bool
  cb : CbParams
  tempPrio : ℤ
  deriving DecidableEq

/-- The request type of a call. -/
def Io.event (io : Io) : LsmEvent := if io.read then .readRequest else .writeRequest

/-- The lane that a call asks for, among a number of lanes. -/
def Io.prio (io : Io) (numPrios : ℤ) : ℤ :=
  if numPrios ≤ 0 then 0
  else if io.tempPrio < 0 then numPrios - 1
  else io.tempPrio

/-- The data of the event of a call. -/
def Io.data (io : Io) (numPrios : ℤ) : Data :=
  ⟨io.object, io.offset.toUInt64, io.size, io.category, io.prio numPrios⟩

/-- `lsm_io_event`, which fills an event.  Of what was in the memory of the event, `old`, some
fields are kept. -/
def lsmIoEvent (numPrios : ℤ) (old : Msg) (io : Io) : Except Fault Msg :=
  if ¬(io.category.utf8ByteSize < 15 ∧ 0 < io.category.utf8ByteSize) ∨ ¬io.cb.info.Sane 4 then
    .error .assertion
  else if 0 < numPrios ∧ numPrios ≤ io.tempPrio then .error .twError
  else .ok { old with
    event := io.event
    data := io.data numPrios
    cb := io.cb }

/-! ### The disk -/

/-- The loop over the request sizes: the number of bins before the first one that is too large. -/
def nearestBin (size : UInt64) : List Bin → ℕ
  | [] => 0
  | bin :: bins => if bin.requestSize > size.toNat then 0 else nearestBin size bins + 1

/-- The counters after a transfer. -/
def LsmStats.transferred (st : LsmStats) (rw seek : Bool) (size : UInt64) (time : STime) :
    LsmStats :=
  if rw then
    { st with
      readSeeks := st.readSeeks + (if seek then 1 else 0)
      readCount := st.readCount + 1
      readBytes := st.readBytes + size.toNat
      readTime := st.readTime + time }
  else
    { st with
      writeSeeks := st.writeSeeks + (if seek then 1 else 0)
      writeCount := st.writeCount + 1
      writeBytes := st.writeBytes + size.toNat
      writeTime := st.writeTime + time }

/-- `transfer_time_table`. -/
def transferTimeTable (d : DiskModel) (s : State) (st : LsmStats) (rw : Bool) (object : UInt64)
    (offset : Int64) (size : UInt64) : Except Fault (STime × LsmStats) :=
  match d.bins[nearestBin size d.bins - 1]? with
  | none => .error .noBin
  | some bin =>
    let rate := if rw then bin.readRate else bin.writeRate
    let seekTime := if rw then bin.readSeek else bin.writeSeek
    let overhead := if rw then bin.readOverhead else bin.writeOverhead
    let mb := (size.toNat : STime) / (1024 * 1024)
    let seek := decide (object ≠ s.currentObject ∨ offset < s.currentOffset ∨
      offset > s.currentOffset + 512)
    let time := mb / rate * 1000 * 1000 * 1000 + overhead * 1000 +
      if seek then seekTime * 1000 else 0
    .ok (time, st.transferred rw seek size time)

/-- `find_stats`: the place of a category, which gets its name if it is new. -/
def findStats (category : String) (stats : List LsmStats) : Option (ℕ × List LsmStats) :=
  (stats.findIdx? fun st => st.category = "" || category = st.category).map fun i =>
    (i, stats.modify i fun st => if st.category = "" then { st with category := category } else st)

/-- The history in the event, for the reverse. -/
def Msg.save (m : Msg) (s : State) (st : LsmStats) : Msg :=
  { m with
    prevIdle := s.nextIdle
    prevStat := st
    prevObject := s.currentObject
    prevOffset := s.currentOffset }

/-- The state after a transfer was started. -/
def State.started (s : State) (stats : List LsmStats) (nextIdle : STime) (data : Data) : State :=
  { s with
    stats := stats
    nextIdle := nextIdle
    currentOffset := (data.offset + data.size).toInt64
    currentObject := data.object }

/-- The event of the completion: a copy of the event that is handled, with another type. -/
def Msg.completed (m : Msg) : Msg :=
  { m with event := if m.event = .writeRequest then .writeCompletion else .readCompletion }

/-- `handle_io_request`. -/
def handleIoRequest (d : DiskModel) (now : STime) (data : Data) (e : Ev) : Except Fault Ev :=
  let rw := decide (e.m.event = .readRequest)
  match findStats data.category e.s.stats with
  | none => .error .assertion
  | some (i, stats) =>
    match stats[i]? with
    | none => .error .assertion
    | some stat =>
      let m := e.m.save e.s stat
      match transferTimeTable d e.s stat rw data.object data.offset.toInt64 data.size with
      | .error f => .error f
      | .ok (time, stat') =>
        let queueTime := (if e.s.nextIdle > now then e.s.nextIdle - now else 0) + time
        .ok {
          s := e.s.started (stats.set i stat') (queueTime + now) data
          m := m
          outs := e.outs ++ [.transfer rw data, .completion queueTime m.completed] }

/-- `handle_io_sched_new`. -/
def handleIoSchedNew (d : DiskModel) (now : STime) (e : Ev) : Except Fault Ev :=
  if e.s.activeCount = 0 then
    (handleIoRequest d now e.m.data e).map fun e => { e with s := e.s.addActive 1 }
  else
    match e.s.lane? e.m.prio with
    | none => .error .noLane
    | some lane => .ok { e with
      s := (e.s.setQueue lane (e.s.queues lane ++ [e.m.data])).addActive 1 }

/-- The loop over the lanes: the first one in which somebody waits, with what waits there. -/
def State.firstWaiting (s : State) : Option (ℕ × Data × List Data) :=
  (List.range s.numPrios).findSome? fun i =>
    match s.queues i with
    | [] => none
    | next :: rest => some (i, next, rest)

/-- `handle_io_sched_compl`. -/
def handleIoSchedCompl (d : DiskModel) (now : STime) (e : Ev) : Except Fault Ev :=
  let s := e.s.addActive (-1)
  if s.activeCount = 0 then .ok { e with s := s }
  else
    match s.firstWaiting with
    | none => .error .assertion
    | some (lane, next, rest) =>
      (handleIoRequest d now next { e with
        s := s.setQueue lane rest
        m := e.m.setPrio lane }).map fun e =>
      -- the operation is kept for the reverse
      { e with s := e.s.setFreelist (RcStack.push now next true e.s.freelist).1 }

/-- `handle_io_completion`. -/
def handleIoCompletion (d : DiskModel) (self : Lpid) (now : STime) (e : Ev) : Except Fault Ev :=
  if ¬e.m.cb.info.Sane 4 then .error .assertion
  else
    let e := { e with
      s := e.s.draw 1
      outs := e.outs ++ [.callback (e.m.cb.answer self 0)] }
    if e.s.useSched then handleIoSchedCompl d now e else .ok e

/-- `lsm_event`. -/
def lsmEvent (d : DiskModel) (self : Lpid) (now : STime) (s : State) (m : Msg) : Except Fault Ev :=
  match m.event with
  | .writeRequest | .readRequest =>
    if s.useSched then handleIoSchedNew d now ⟨s, m, []⟩ else handleIoRequest d now m.data
      ⟨s, m, []⟩
  | .writeCompletion | .readCompletion => handleIoCompletion d self now ⟨s, m, []⟩

/-! ### Reverse handlers -/

/-- `handle_rev_io_request`. -/
def handleRevIoRequest (data : Data) (s : State) (m : Msg) : Except Fault State :=
  match findStats data.category s.stats with
  | none => .error .assertion
  | some (i, stats) => .ok { s with
    nextIdle := m.prevIdle
    stats := stats.set i m.prevStat
    currentObject := m.prevObject
    currentOffset := m.prevOffset }

/-- `handle_rev_io_sched_new`. -/
def handleRevIoSchedNew (s : State) (m : Msg) : Except Fault State :=
  let s := s.addActive (-1)
  if s.activeCount = 0 then handleRevIoRequest m.data s m
  else
    match s.lane? m.prio with
    | none => .error .noLane
    | some lane =>
      if s.queues lane = [] then .error .assertion
      else .ok (s.setQueue lane (s.queues lane).dropLast)

/-- `handle_rev_io_sched_compl`. -/
def handleRevIoSchedCompl (s : State) (m : Msg) : Except Fault State :=
  if s.activeCount = 0 then .ok (s.addActive 1)
  else
    match RcStack.pop s.freelist with
    | none => .error .twError
    | some (prev, freelist) =>
      (handleRevIoRequest prev (s.setFreelist freelist) m).bind fun s =>
        match s.lane? m.prio with
        | none => .error .noLane
        | some lane => .ok ((s.setQueue lane (s.queues lane ++ [prev])).addActive 1)

/-- `handle_rev_io_completion`. -/
def handleRevIoCompletion (s : State) (m : Msg) : Except Fault State :=
  if s.useSched then (handleRevIoSchedCompl s m).map fun s => s.draw (-1) else .ok (s.draw (-1))

/-- `lsm_rev_event`. -/
def lsmRevEvent (s : State) (m : Msg) : Except Fault State :=
  match m.event with
  | .writeRequest | .readRequest =>
    if s.useSched then handleRevIoSchedNew s m else handleRevIoRequest m.data s m
  | .writeCompletion | .readCompletion => handleRevIoCompletion s m

end CodesSim.Storage
