import CodesSim.Lib.Machine
import CodesSim.Lib.Outcome
import CodesSim.Replay.Basic
import CodesSim.Util.Jobmap

/-!
# Synthetic traffic

A rank of a synthetic job of the MPI replay (`model-net-mpi-replay.c`) has no trace.  At each
`CLI_BCKGND_GEN` it sends messages to ranks that its traffic pattern gives (`genSyntheticTr`) and
schedules the next such event.  Two timers may keep a job from sending for a while, and a limit of
bytes may finish a rank.

* A handler works on a `GenEv`, as the handlers of the traces do.  The arithmetic of ranks is the
  one of 32-bit `int`s, that of bytes the one of 64-bit words.
* What the reverse needs is saved in a union.  Its first eight bytes are two `int`s for the
  generator and a `double` for `finishBckgndTraffic`: `DoubleLayout` says how one is read as the
  other.
-/

namespace CodesSim.Synthetic

open CodesMapping Replay

/-- The traffic patterns (`TRAFFIC`). -/
inductive Traffic where
  | uniform | nearestNeighbor | alltoall | stencil | permutation | bisection

/-- How a `double` is read as two `int`s and back. -/
structure DoubleLayout where
  toInts : STime → ℤ × ℤ
  ofInts : ℤ × ℤ → STime
  ofInts_toInts : ∀ t, ofInts (toInts t) = t
  /-- All bits of the number zero are zero. -/
  toInts_zero : toInts 0 = (0, 0)

/-- A layout: numbers as their numerators and denominators. -/
def fractionLayout : DoubleLayout where
  toInts t := (t.num, t.den - 1)
  ofInts w := w.1 / (w.2 + 1)
  ofInts_toInts t := by
    push_cast
    rw [sub_add_cancel]
    exact Rat.num_div_den t
  toInts_zero := rfl

/-- The numbers `tw_rand_integer` draws, by their place in the stream and the bounds. -/
structure RandIntegers where
  draw : ℤ → ℤ → ℤ → ℤ
  lower : ∀ i low high, low ≤ high → low ≤ draw i low high
  upper : ∀ i low high, low ≤ high → draw i low high ≤ high

/-- The statistics sample (`ross_model_sample`). -/
structure SynSample where
  numSends : UInt64
  numBytesSent : UInt64

/-- The state of a rank (`nw_state`), the global `num_syn_bytes_sent`, and how many numbers and
latencies the LP has drawn. -/
structure SynState where
  (nwId appId localRank qosLevel : ℤ)
  syntheticPattern : Traffic
  isFinished : Bool
  startTime : STime
  elapsedTime : STime
  numSends : UInt64
  numBytesSent : UInt64
  sample : SynSample
  genData : UInt64
  prevSwitch : UInt64
  savedPermDest : ℤ
  numSynBytesSent : UInt64
  draws : ℤ
  latencies : ℤ

/-- An event (`nw_message`): the result of the last `model_net_event` and the union for the
reverse.  The fields `saved_syn_length`, `saved_perm` and `saved_elapsed_time` share the words. -/
structure SynMsg where
  eventRc : ℤ
  words : ℤ × ℤ
  savedPrevSwitch : UInt64
  savedGenData : UInt64

/-- The bits of `tw_bf` the handlers use. -/
structure SynBf where
  (c0 c1 c2 c5 c7 : Bool)

/-- The bit field of an event before its handler. -/
def SynBf.clear : SynBf := ⟨false, false, false, false, false⟩

/-- A message of the traffic (`CLI_BCKGND_ARRIVE`). -/
structure ArriveMsg where
  simStartTime : STime
  (destRank numBytes appId srcRank : ℤ)

/-- What the generator sends. -/
inductive SynOut where
  /-- A message handed to model-net with a traffic class. -/
  | arrive (prio : String) (dest : Lpid) (msg : ArriveMsg)
  /-- The next `CLI_BCKGND_GEN`. -/
  | gen (ts : STime)

/-- The surroundings of a rank. -/
structure SynCtx extends ReplayCtx where
  jobmap : JobmapCtx
  /-- `payload_sz`, an `int`. -/
  payloadSz : ℤ
  payloadSz_lower : -2 ^ 31 ≤ payloadSz
  payloadSz_upper : payloadSz < 2 ^ 31
  /-- `max_gen_data`. -/
  maxGenData : UInt64
  /-- `perm_switch_thresh`. -/
  permSwitchThresh : UInt64
  /-- `job_timer1` of a job. -/
  jobTimer1 : ℤ → ℤ
  /-- `job_timer2` of a job. -/
  jobTimer2 : ℤ → ℤ
  /-- `mean_interval_of_job`. -/
  meanIntervalOfJob : ℤ → STime
  rng : RandIntegers
  layout : DoubleLayout

theorem minInt_le_1024 : (-2 : ℤ) ^ 31 ≤ 1024 := by decide

theorem le_maxInt_1024 : (1024 : ℤ) < 2 ^ 31 := by decide

/-- A handler at work. -/
structure GenEv where
  s : SynState
  m : SynMsg
  bf : SynBf
  outs : List SynOut

namespace GenEv

/-- Set bits of the bit field. -/
def setBf (e : GenEv) (f : SynBf → SynBf) : GenEv := { e with bf := f e.bf }

/-- Leave something in the message. -/
def setMsg (e : GenEv) (f : SynMsg → SynMsg) : GenEv := { e with m := f e.m }

/-- Change the state. -/
def setState (e : GenEv) (f : SynState → SynState) : GenEv := { e with s := f e.s }

/-- Send an event. -/
def send (e : GenEv) (o : SynOut) : GenEv := { e with outs := e.outs ++ [o] }

/-- `tw_rand_integer`, from zero. -/
def draw (c : SynCtx) (high : ℤ) (e : GenEv) : ℤ × GenEv :=
  (c.rng.draw e.s.draws 0 high, e.setState fun s => { s with draws := s.draws + 1 })

end GenEv

namespace SynMsg

/-- `rc.gen.saved_syn_length`. -/
def savedSynLength (m : SynMsg) : ℤ := m.words.1

/-- `rc.gen.saved_perm`. -/
def savedPerm (m : SynMsg) : ℤ := m.words.2

/-- `rc.mpi_next.saved_elapsed_time`. -/
def savedElapsedTime (layout : DoubleLayout) (m : SynMsg) : STime := layout.ofInts m.words

/-- Write `rc.gen.saved_syn_length`. -/
def setSynLength (length : ℤ) (m : SynMsg) : SynMsg := { m with words := (length, m.words.2) }

/-- Write `rc.gen.saved_perm`. -/
def setPerm (perm : ℤ) (m : SynMsg) : SynMsg := { m with words := (m.words.1, perm) }

/-- Write `rc.mpi_next.saved_elapsed_time`. -/
def setElapsedTime (layout : DoubleLayout) (time : STime) (m : SynMsg) : SynMsg :=
  { m with words := layout.toInts time }

end SynMsg

/-! ### The end of a rank -/

/-- `finish_bckgnd_traffic`. -/
def finishBckgndTraffic (c : SynCtx) (e : GenEv) : GenEv :=
  let e := e.setState fun s => { s with isFinished := true }
  let e := e.setMsg (SynMsg.setElapsedTime c.layout e.s.elapsedTime)
  e.setState fun s => { s with elapsedTime := c.now - s.startTime }

/-- `finish_bckgnd_traffic_rc`. -/
def finishBckgndTrafficRc (c : SynCtx) (m : SynMsg) (s : SynState) : SynState :=
  { s with isFinished := false, elapsedTime := m.savedElapsedTime c.layout }

/-! ### Destinations -/

/-- A rank at a distance from another, in the arithmetic of `int`s. -/
def shiftRank (localRank step numClients : ℤ) : ℤ :=
  Int.tmod (wrapInt (localRank + step)) numClients

/-- A rank that was drawn, or the one at a distance if it is this one. -/
def otherRank (localRank step numClients drawn : ℤ) : ℤ :=
  if drawn = localRank then shiftRank localRank step numClients else drawn

/-- `UNIFORM`. -/
def uniformDest (c : SynCtx) (n : ℤ) (e : GenEv) : List ℤ × GenEv :=
  let r := GenEv.draw c (n - 1) (e.setBf fun b => { b with c1 := true })
  ([otherRank e.s.localRank 1 n r.1], r.2)

/-- `PERMUTATION`: the first destination is drawn before there was any traffic. -/
def permInit (c : SynCtx) (n : ℤ) (e : GenEv) : GenEv :=
  if e.s.genData = 0 then
    let r := GenEv.draw c (n - 1) (e.setBf fun b => { b with c7 := true })
    r.2.setState fun s =>
      { s with savedPermDest := otherRank s.localRank (Int.tdiv n 2) n r.1 }
  else e

/-- `PERMUTATION`: a new destination is drawn after so many bytes. -/
def permSwitch (c : SynCtx) (n : ℤ) (e : GenEv) : GenEv :=
  if e.s.genData - e.s.prevSwitch ≥ c.permSwitchThresh then
    let e := e.setBf fun b => { b with c2 := true }
    let e := e.setState fun s => { s with prevSwitch := s.genData }
    let r := GenEv.draw c (n - 1) e
    r.2.setState fun s =>
      { s with savedPermDest := otherRank s.localRank (Int.tdiv n 2) n r.1 }
  else e

/-- `PERMUTATION`. -/
def permutationDest (c : SynCtx) (n : ℤ) (e : GenEv) : Except String (List ℤ × GenEv) :=
  let e := e.setMsg fun m => { m with savedPrevSwitch := e.s.prevSwitch }.setPerm e.s.savedPermDest
  let e := permSwitch c n (permInit c n e)
  if e.s.savedPermDest = e.s.localRank then .error "assert(dest_svr[0] != s->local_rank)"
  else .ok ([e.s.savedPermDest], e)

/-- The loop that counts the binary digits of a number. -/
def countDigits : ℕ → ℤ → ℕ → ℕ
  | 0, _, digits => digits
  | fuel + 1, temp, digits => if temp > 0 then countDigits fuel (temp / 2) (digits + 1) else digits

/-- The number of rows of a stencil; no `int` has more than 31 digits. -/
def stencilX (n : ℤ) : ℤ := 2 ^ (countDigits 32 n 0 / 2)

/-- The number of columns of a stencil. -/
def stencilY (n : ℤ) : ℤ := Int.tdiv n (stencilX n)

/-- `STENCIL`: the neighbours on the left, on the right, below and above. -/
def stencilDests (localRank n : ℤ) : List ℤ :=
  let x := stencilX n
  let y := stencilY n
  let row := Int.tdiv localRank y
  let col := Int.tmod localRank y
  [row * y + Int.tmod (col - 1 + y) y, row * y + Int.tmod (col + 1 + y) y,
    Int.tmod (row - 1 + x) x * y + col, Int.tmod (row + 1 + x) x * y + col]

/-- `ALLTOALL`. -/
def alltoallDests (localRank n : ℤ) : List ℤ :=
  ((List.range n.toNat).map fun i : ℕ => (i : ℤ)).filter fun i => i ≠ localRank

/-- The ranks a message is for (`dest_svr`). -/
def findDestinations (c : SynCtx) (n : ℤ) (e : GenEv) : Except String (List ℤ × GenEv) :=
  match e.s.syntheticPattern with
  | .uniform => .ok (uniformDest c n e)
  | .permutation => permutationDest c n e
  | .nearestNeighbor => .ok ([shiftRank e.s.localRank 1 n], e)
  | .bisection => .ok ([shiftRank e.s.localRank (Int.tdiv n 2) n], e)
  | .alltoall => .ok (alltoallDests e.s.localRank n, e)
  | .stencil => .ok (stencilDests e.s.localRank n, e)

/-! ### The generator -/

/-- The job does not send between its timers. -/
def betweenTimers (c : SynCtx) (appId : ℤ) : Bool :=
  c.now < c.jobTimer2 appId && c.jobTimer1 appId > 0 && c.now > c.jobTimer1 appId

/-- A payload was sent: the counters of bytes. -/
def SynState.addBytes (c : SynCtx) (s : SynState) : SynState :=
  { s with
    genData := s.genData + UInt64.ofInt c.payloadSz
    numBytesSent := s.numBytesSent + UInt64.ofInt c.payloadSz
    sample := { s.sample with numBytesSent := s.sample.numBytesSent + UInt64.ofInt c.payloadSz }
    numSynBytesSent := s.numSynBytesSent + UInt64.ofInt c.payloadSz }

/-- Send a message to a rank.  The call of model-net draws a latency and returns how many. -/
def sendTo (c : SynCtx) (jid : JobmapId) (prio : String) (dest : ℤ) (e : GenEv) :
    Except String GenEv :=
  match c.jobmap.toGlobalId ⟨jid.job, dest⟩ with
  | none => .error "read past global_ids"
  | some intmDestId =>
    match rankToLpid c.toReplayCtx intmDestId with
    | .error text => .error text
    | .ok gid =>
      let msg : ArriveMsg := ⟨c.now, dest, c.payloadSz, e.s.appId, e.s.localRank⟩
      let e := (e.setState fun s => { s with latencies := s.latencies + 1 }).send
        (.arrive prio gid msg)
      let e := e.setMsg fun m => { m with eventRc := 1 }
      .ok (e.setState (SynState.addBytes c))

/-- The loop over the destinations. -/
def sendAll (c : SynCtx) (jid : JobmapId) (prio : String) : List ℤ → GenEv → Except String GenEv
  | [], e => .ok e
  | dest :: dests, e =>
    match sendTo c jid prio dest e with
    | .error text => .error text
    | .ok e => sendAll c jid prio dests e

/-- What follows the messages: the count of sends, the next event and the limit of bytes. -/
def afterSends (c : SynCtx) (e : GenEv) : GenEv :=
  let e := e.setState fun s =>
    { s with
      numSends := s.numSends + 1
      sample := { s.sample with numSends := s.sample.numSends + 1 } }
  let e := e.send (.gen (c.meanIntervalOfJob e.s.appId))
  if c.maxGenData ≠ 0 ∧ e.s.genData ≥ c.maxGenData then
    finishBckgndTraffic c (e.setBf fun b => { b with c5 := true })
  else e

/-- `gen_synthetic_tr`, without an iteration predictor. -/
def genSyntheticTr (c : SynCtx) (e : GenEv) : Except String GenEv :=
  if e.s.isFinished then .ok (e.setBf fun b => { b with c0 := true })
  else
    let jid := c.jobmap.toLocalId e.s.nwId
    match findDestinations c (c.jobmap.getNumRanks jid.job) e with
    | .error text => .error text
    | .ok (destSvr, e) =>
      let e := e.setMsg (SynMsg.setSynLength destSvr.length)
      match qosPrio e.s.qosLevel with
      | none => .error ("\n Invalid QoS level: " ++ toString e.s.qosLevel)
      | some prio =>
        -- between the timers the length is set to zero
        let dests := if betweenTimers c e.s.appId then [] else destSvr
        let e := e.setMsg fun m => { m with savedGenData := e.s.genData }
        match sendAll c jid prio dests e with
        | .error text => .error text
        | .ok e => .ok (afterSends c e)

/-! ### The reverse -/

/-- One round of the loop that takes messages back; `model_net_event_rc2` reverses as many latencies
as the saved result says. -/
def undoSend (c : SynCtx) (eventRc : ℤ) (s : SynState) : SynState :=
  { s with
    latencies := s.latencies - max 0 eventRc
    numSynBytesSent := s.numSynBytesSent - UInt64.ofInt c.payloadSz
    numBytesSent := s.numBytesSent - UInt64.ofInt c.payloadSz
    sample := { s.sample with numBytesSent := s.sample.numBytesSent - UInt64.ofInt c.payloadSz } }

/-- `gen_synthetic_tr_rc`. -/
def genSyntheticTrRc (c : SynCtx) (bf : SynBf) (m : SynMsg) (s : SynState) : SynState :=
  if bf.c0 then s
  else
    let s := if bf.c1 then { s with draws := s.draws - 1 } else s
    let s := if bf.c2 then
        { s with
          prevSwitch := m.savedPrevSwitch, savedPermDest := m.savedPerm, draws := s.draws - 1 }
      else s
    let s := { s with genData := m.savedGenData }
    let s := (undoSend c m.eventRc)^[m.savedSynLength.toNat] s
    let s :=
      { s with
        numSends := s.numSends - 1
        sample := { s.sample with numSends := s.sample.numSends - 1 } }
    let s := if bf.c5 then finishBckgndTrafficRc c m s else s
    if bf.c7 then { s with savedPermDest := m.savedPerm, draws := s.draws - 1 } else s

/-! ### Runs -/

/-- The events that reach a rank and touch this state; each starts with a clear bit field. -/
inductive SynLabel where
  /-- `CLI_BCKGND_GEN`. -/
  | gen (now : STime) (m : SynMsg)
  /-- `CLI_BCKGND_FIN`. -/
  | fin (now : STime) (m : SynMsg)
  /-- Other LPs count their bytes in the same global, and the sample is written out. -/
  | others (numSynBytesSent : UInt64) (sample : SynSample)

/-- The surroundings at a time. -/
def SynCtx.at (c : SynCtx) (now : STime) : SynCtx := { c with now := now }

/-- A handler before its first statement. -/
def GenEv.start (s : SynState) (m : SynMsg) : GenEv := ⟨s, m, .clear, []⟩

/-- A rank as a machine. -/
def synMachine (c : SynCtx) : Machine SynState SynLabel where
  step
    | s, .gen now m => ((genSyntheticTr (c.at now) (.start s m)).map GenEv.s).toOption
    | s, .fin now m => some (finishBckgndTraffic (c.at now) (.start s m)).s
    | s, .others numSynBytesSent sample =>
      some { s with numSynBytesSent := numSynBytesSent, sample := sample }

/-- The part of `nw_test_init` for an LP of a synthetic job. -/
def SynState.init (c : SynCtx) (nwId : ℤ) (pattern : Traffic) (qosLevel : ℤ) : SynState where
  nwId := nwId
  appId := (c.jobmap.toLocalId nwId).job
  localRank := (c.jobmap.toLocalId nwId).rank
  qosLevel := qosLevel
  syntheticPattern := pattern
  isFinished := false
  startTime := c.now
  elapsedTime := 0
  numSends := 0
  numBytesSent := 0
  sample := ⟨0, 0⟩
  genData := 0
  prevSwitch := 0
  savedPermDest := 0
  numSynBytesSent := 0
  draws := 0
  latencies := 0

end CodesSim.Synthetic
