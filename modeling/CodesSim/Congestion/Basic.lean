import CodesSim.Sched.Basic
import CodesSim.Lib.Tally
import Mathlib.Data.Rat.Defs

/-!
# The congestion controller

The local controllers of a router and of a terminal (`congestion-controller.cxx`).  A router counts
the packets it holds in a tree: a node for the router, one for each port and one for each virtual
channel (`Portchan_node`).  When the packets of a port reach a threshold, the terminals of the
applications that use much of the port are marked and sent a signal to slow down; when they fall
below a second threshold the marks are taken away again, and a terminal that has lost its last
mark is sent a signal to go on.

* Terminals and applications are numbered; a mark is an element of the `abatedTerminals` of a port,
  and `abatedChildCounter` counts the marks of a terminal over the ports.
* A packet has at least one byte: the callers pass the size of a chunk.
* The tree has marks for the router and for the virtual channels too, but nothing sets them, and
  only ports can be congested.
* `double` is `ℚ`, and counts are unbounded.  The comparison of a count with an `int` converts the
  `int` (`toUnsigned`), as in C.
-/

namespace CodesSim.Congestion

open Function

/-! ### Arithmetic -/

/-- Conversion to `unsigned long long`. -/
def toUnsigned (i : ℤ) : ℕ := (i % 2 ^ 64).toNat

/-- Conversion of an `unsigned long long` or an `unsigned int` to `int`. -/
def toInt (n : ℕ) : ℤ := (n : ℤ).bmod (2 ^ 32)

/-- Conversion of a `double` to `int`: towards zero. -/
def truncate (q : ℚ) : ℤ := q.num.tdiv q.den

/-- `bytes_to_ns`. -/
def bytesToNs (bytes : ℕ) (gbPerS : ℚ) : STime := bytes / 1024 ^ 3 / gbPerS * 1000 ^ 3

/-! ### The tree -/

/-- The parameters of a router (`cc_param`, and the arrays in `rlc_state`). -/
structure RouterParam where
  radix : ℕ
  vcPerPort : ℕ
  vcSizes : Fin radix → ℤ
  bandwidths : Fin radix → ℚ
  /-- The ports that are watched. -/
  outputPorts : Finset (Fin radix)
  (singlePortCongestionThreshold singlePortDecongestionThreshold : ℚ)
  (singlePortAggressorUsageThreshold : ℚ)
  notificationLatency : STime

/-- A packet that a router receives for a port and a virtual channel, or forwards from there. -/
structure Packet (p : RouterParam) where
  size : ℕ
  size_pos : 0 < size
  port : Fin p.radix
  vc : Fin p.vcPerPort
  term : ℕ
  app : ℕ
  deriving DecidableEq

/-- What a node of the tree holds (`Portchan_node`). -/
structure Node where
  packetCount : ℕ
  isCongested : Bool
  nextPossibleNormalTime : STime
  abatedTerminals : Std.ExtTreeSet ℕ
  /-- The number of children that have marked a terminal. -/
  abatedChildCounter : Std.ExtTreeMap ℕ ℕ
  termCount : Std.ExtTreeMap ℕ ℕ
  appCount : Std.ExtTreeMap ℕ ℕ
  /-- The packets by application and terminal. -/
  appToTerminal : Std.ExtTreeMap ℕ (Std.ExtTreeMap ℕ ℕ)

/-- A new node; the expiry time is not set. -/
def Node.init (time : STime) : Node := ⟨0, false, time, ∅, ∅, ∅, ∅, ∅⟩

/-- A port with its virtual channels. -/
structure Port (p : RouterParam) extends Node where
  vcs : Fin p.vcPerPort → Node

/-- A router with its ports. -/
structure Tree (p : RouterParam) extends Node where
  ports : Fin p.radix → Port p

/-- A new tree, with any expiry times. -/
def Tree.init (p : RouterParam) (time : STime) (portTime : Fin p.radix → STime)
    (vcTime : Fin p.radix → Fin p.vcPerPort → STime) : Tree p where
  toNode := Node.init time
  ports i := { Node.init (portTime i) with vcs := fun v => Node.init (vcTime i v) }

variable {p : RouterParam}

/-- `enqueue_packet` at one node. -/
def Node.enqueue (n : Node) (x : Packet p) : Node :=
  { n with
    packetCount := n.packetCount + x.size
    termCount := Tally.add n.termCount x.term x.size
    appCount := Tally.add n.appCount x.app x.size
    appToTerminal := Tally.add₂ n.appToTerminal x.app x.term x.size }

/-- The assertions of `dequeue_packet`. -/
def Node.Holds (n : Node) (x : Packet p) : Prop :=
  x.size ≤ n.packetCount ∧ x.size ≤ Tally.count (Tally.inner n.appToTerminal x.app) x.term

instance (n : Node) (x : Packet p) : Decidable (n.Holds x) :=
  inferInstanceAs (Decidable (_ ∧ _))

/-- `dequeue_packet` at one node. -/
def Node.dequeue (n : Node) (x : Packet p) : Node :=
  { n with
    packetCount := n.packetCount - x.size
    termCount := Tally.sub n.termCount x.term x.size
    appCount := Tally.sub n.appCount x.app x.size
    appToTerminal := Tally.sub₂ n.appToTerminal x.app x.term x.size }

/-- Change a port. -/
def Tree.setPort (t : Tree p) (i : Fin p.radix) (f : Port p → Port p) : Tree p :=
  { t with ports := update t.ports i (f (t.ports i)) }

/-- Change a node of the router, of a port and of a virtual channel. -/
def Tree.onPath (t : Tree p) (x : Packet p) (f : Node → Node) : Tree p :=
  { toNode := f t.toNode
    ports := update t.ports x.port
      { toNode := f (t.ports x.port).toNode
        vcs := update (t.ports x.port).vcs x.vc (f ((t.ports x.port).vcs x.vc)) } }

/-- `enqueue_packet`. -/
def Tree.enqueuePacket (t : Tree p) (x : Packet p) : Tree p := t.onPath x (·.enqueue x)

/-- `dequeue_packet`; `none` is a failed assertion. -/
def Tree.dequeuePacket (t : Tree p) (x : Packet p) : Option (Tree p) :=
  if t.toNode.Holds x ∧ (t.ports x.port).toNode.Holds x ∧ ((t.ports x.port).vcs x.vc).Holds x then
    some (t.onPath x (·.dequeue x))
  else none

/-- `mark_abated_terminal` for a port. -/
def Tree.markAbatedTerminal (t : Tree p) (i : Fin p.radix) (term : ℕ) : Tree p :=
  { t with abatedChildCounter := Tally.add t.abatedChildCounter term 1 }.setPort i fun port =>
    { port with abatedTerminals := port.abatedTerminals.insert term }

/-- `mark_unabated_terminal` for a port. -/
def Tree.markUnabatedTerminal (t : Tree p) (i : Fin p.radix) (term : ℕ) : Tree p :=
  { t with abatedChildCounter := Tally.sub t.abatedChildCounter term 1 }.setPort i fun port =>
    { port with abatedTerminals := port.abatedTerminals.erase term }

/-- `is_abated_terminal` at the router. -/
def Tree.IsAbatedTerminal (t : Tree p) (term : ℕ) : Prop :=
  term ∈ t.abatedTerminals ∨ 0 < Tally.count t.abatedChildCounter term

instance (t : Tree p) (term : ℕ) : Decidable (t.IsAbatedTerminal term) :=
  inferInstanceAs (Decidable (_ ∨ _))

/-- `set_port_congestion_state`. -/
def Tree.setPortCongestionState (t : Tree p) (i : Fin p.radix) (b : Bool) : Tree p :=
  t.setPort i fun port => { port with isCongested := b }

/-- `set_next_possible_port_normal_time`. -/
def Tree.setNextPossiblePortNormalTime (t : Tree p) (i : Fin p.radix) (time : STime) : Tree p :=
  t.setPort i fun port => { port with nextPossibleNormalTime := time }

/-! ### The controller of a router -/

/-- What a controller sends to a terminal. -/
inductive Signal where
  | abate (app : ℕ)
  | normal

/-- A signal on its way. -/
structure Out where
  term : ℕ
  offset : STime
  signal : Signal

/-- What is saved for the reverse functions (`congestion_control_message`). -/
structure Saved where
  (toCongest toDecongest receivedNewWhileCongested : Bool := false)
  savedTermId : ℕ := 0
  savedExpireTime : STime := 0
  /-- `danger_rc_abated`. -/
  abated : List ℕ := []
  /-- `danger_rc_deabated`. -/
  deabated : List ℕ := []

variable (p) in
/-- The size of the buffers of a port. -/
def portSize (i : Fin p.radix) : ℤ := p.vcSizes i * p.vcPerPort

variable (p) in
def congestionSize (i : Fin p.radix) : ℤ :=
  truncate (p.singlePortCongestionThreshold * portSize p i)

variable (p) in
def decongestionSize (i : Fin p.radix) : ℤ :=
  truncate (p.singlePortDecongestionThreshold * portSize p i)

/-- An application with `usage` bytes on a port with `occupancy` bytes is an aggressor.  The
division is one of integers. -/
def IsAggressor (p : RouterParam) (usage occupancy : ℕ) : Prop :=
  p.singlePortAggressorUsageThreshold ≤ (usage / occupancy : ℕ)

instance (usage occupancy : ℕ) : Decidable (IsAggressor p usage occupancy) :=
  inferInstanceAs (Decidable (_ ≤ _))

/-- The terminals of an application on a port, if it is an aggressor.  It fails if there is nothing
to divide by, or if the application has no terminals. -/
def aggressorsOf (port : Port p) (app : ℕ × ℕ) : Option (List (ℕ × ℕ)) :=
  if port.packetCount = 0 then none
  else if IsAggressor p app.2 port.packetCount then
    port.appToTerminal[app.1]?.map fun terms => terms.toList.map fun e => (e.1, app.1)
  else some []

/-- The order of a set of pairs. -/
def PairLe (x y : ℕ × ℕ) : Prop := x.1 < y.1 ∨ (x.1 = y.1 ∧ x.2 ≤ y.2)

instance : DecidableRel PairLe := fun _ _ => inferInstanceAs (Decidable (_ ∨ _))

/-- `aggressor_term_ids`: the terminals to be marked, each with its application. -/
def aggressors (port : Port p) : Option (List (ℕ × ℕ)) :=
  (port.appCount.toList.mapM (aggressorsOf port)).map fun l => l.flatten.insertionSort PairLe

/-- Send a signal to a terminal. -/
def sendSignal (p : RouterParam) (term : ℕ) (signal : Signal) : Out :=
  ⟨term, p.notificationLatency, signal⟩

/-- The loop over the aggressors: a terminal without a mark is sent a signal, and every terminal is
marked. -/
def abateAll (i : Fin p.radix) : Tree p → List (ℕ × ℕ) → Tree p × List Out
  | t, [] => (t, [])
  | t, (term, app) :: rest =>
    let r := abateAll i (t.markAbatedTerminal i term) rest
    (r.1, if t.IsAbatedTerminal term then r.2 else sendSignal p term (.abate app) :: r.2)

/-- The loop over the marks of a port: each is taken away, and a terminal that has none left is sent
a signal. -/
def unabateAll (i : Fin p.radix) : Tree p → List ℕ → Tree p × List Out
  | t, [] => (t, [])
  | t, term :: rest =>
    let t' := t.markUnabatedTerminal i term
    let r := unabateAll i t' rest
    (r.1, if t'.IsAbatedTerminal term then r.2 else sendSignal p term .normal :: r.2)

/-- A port that is not congested becomes so. -/
def Congests (t : Tree p) (i : Fin p.radix) : Prop :=
  (t.ports i).isCongested = false ∧ toUnsigned (congestionSize p i) ≤ (t.ports i).packetCount

instance (t : Tree p) (i : Fin p.radix) : Decidable (Congests t i) :=
  inferInstanceAs (Decidable (_ ∧ _))

/-- A congested port ceases to be so at time `now`. -/
def Decongests (t : Tree p) (i : Fin p.radix) (now : STime) : Prop :=
  (t.ports i).isCongested = true ∧ (t.ports i).nextPossibleNormalTime < now ∧
    (t.ports i).packetCount < toUnsigned (decongestionSize p i)

instance (t : Tree p) (i : Fin p.radix) (now : STime) : Decidable (Decongests t i now) :=
  inferInstanceAs (Decidable (_ ∧ _))

variable (p) in
/-- When a port that becomes congested at time `now` can cease to be so. -/
def expireTime (i : Fin p.radix) (now : STime) : STime :=
  now + 2 * bytesToNs (toUnsigned (congestionSize p i - decongestionSize p i)) (p.bandwidths i)

/-- `cc_router_congestion_check`. -/
def congestionCheck (t : Tree p) (now : STime) (i : Fin p.radix) (sv : Saved) :
    Option (Tree p × Saved × List Out) :=
  if Congests t i then
    let t := (t.setPortCongestionState i true).setNextPossiblePortNormalTime i (expireTime p i now)
    (aggressors (t.ports i)).map fun agg =>
      let r := abateAll i t agg
      (r.1, { sv with toCongest := true, abated := agg.map Prod.fst }, r.2)
  else if Decongests t i now then
    let terms := (t.ports i).abatedTerminals.toList
    let r := unabateAll i (t.setPortCongestionState i false) terms
    some (r.1, { sv with toDecongest := true, abated := [], deabated := terms }, r.2)
  else some (t, { sv with abated := [] }, [])

/-- A packet from a terminal without a mark makes a congested port mark it. -/
def MarksNew (t : Tree p) (x : Packet p) : Prop :=
  ¬ t.IsAbatedTerminal x.term ∧ p.singlePortAggressorUsageThreshold ≤
    (toUnsigned (toInt (Tally.count (t.ports x.port).appCount x.app)) /
      (t.ports x.port).packetCount : ℕ)

instance (t : Tree p) (x : Packet p) : Decidable (MarksNew t x) :=
  inferInstanceAs (Decidable (_ ∧ _))

/-- `cc_router_received_packet`. -/
def receivedPacket (t : Tree p) (now : STime) (x : Packet p) (sv : Saved) :
    Option (Tree p × Saved × List Out) :=
  if x.port ∈ p.outputPorts then
    let t := t.enqueuePacket x
    let cur := (t.ports x.port).nextPossibleNormalTime
    let sv := { sv with savedExpireTime := cur }
    if (t.ports x.port).isCongested then
      let later := cur + bytesToNs x.size (p.bandwidths x.port)
      if MarksNew t x then
        some ((t.markAbatedTerminal x.port x.term).setNextPossiblePortNormalTime x.port later,
          { sv with receivedNewWhileCongested := true, savedTermId := x.term },
          [sendSignal p x.term (.abate x.app)])
      else some (t.setNextPossiblePortNormalTime x.port later, sv, [])
    else congestionCheck t now x.port sv
  else some (t, sv, [])

/-- `cc_router_forwarded_packet`. -/
def forwardedPacket (t : Tree p) (now : STime) (x : Packet p) (sv : Saved) :
    Option (Tree p × Saved × List Out) :=
  if x.port ∈ p.outputPorts then
    (t.dequeuePacket x).bind fun t => congestionCheck t now x.port sv
  else some (t, sv, [])

/-- `cc_router_congestion_check_rc`. -/
def congestionCheckRc (t : Tree p) (i : Fin p.radix) (sv : Saved) : Tree p :=
  let t := if sv.toCongest then
      (sv.abated.foldl (·.markUnabatedTerminal i) t).setPortCongestionState i false
    else t
  if sv.toDecongest then
    (sv.deabated.foldl (·.markAbatedTerminal i) t).setPortCongestionState i true
  else t

/-- `cc_router_received_packet_rc`. -/
def receivedPacketRc (t : Tree p) (x : Packet p) (sv : Saved) : Option (Tree p) :=
  if x.port ∈ p.outputPorts then
    let t := congestionCheckRc t x.port sv
    let t := if sv.receivedNewWhileCongested then t.markUnabatedTerminal x.port
      sv.savedTermId else t
    (t.setNextPossiblePortNormalTime x.port sv.savedExpireTime).dequeuePacket x
  else some t

/-- `cc_router_forwarded_packet_rc`. -/
def forwardedPacketRc (t : Tree p) (x : Packet p) (sv : Saved) : Tree p :=
  if x.port ∈ p.outputPorts then (congestionCheckRc t x.port sv).enqueuePacket x else t

/-- The events of a router. -/
inductive RouterEvent (p : RouterParam) where
  | received (x : Packet p)
  | forwarded (x : Packet p)

/-- What a router does on an event. -/
def routerEvent (t : Tree p) (now : STime) (sv : Saved) :
    RouterEvent p → Option (Tree p × Saved × List Out)
  | .received x => receivedPacket t now x sv
  | .forwarded x => forwardedPacket t now x sv

/-- The reverse of `routerEvent`. -/
def routerEventRc (t : Tree p) (sv : Saved) : RouterEvent p → Option (Tree p)
  | .received x => receivedPacketRc t x sv
  | .forwarded x => some (forwardedPacketRc t x sv)

/-! ### The controller of a terminal -/

/-- The parameters of a terminal. -/
structure TerminalParam where
  terminalConfiguredBandwidth : ℚ
  chunkSize : UInt32
  bandwidthMonitoringWindow : STime

/-- `cc_bandwidth_rolling_window_count`. -/
def rollingWindowCount : ℕ := 5

/-- `tlc_state`. -/
structure Terminal where
  abatementSignalCount : ℤ
  windowEpoch : UInt32
  ejectedPacketBytes : UInt32
  ejectedRateWindows : ℕ → ℚ
  curAverageRate : ℚ
  isAbatementActive : Bool
  currentInjectionBandwidthCoef : ℚ

/-- `cc_terminal_local_controller_init`. -/
def Terminal.init : Terminal where
  abatementSignalCount := 0
  windowEpoch := 0
  ejectedPacketBytes := 0
  ejectedRateWindows _ := 0
  curAverageRate := 0
  isAbatementActive := false
  currentInjectionBandwidthCoef := 1

/-- The events of a terminal (`cc_event_t`). -/
inductive Event where
  | signal (s : Signal)
  | bandwidthCheck
  | simAck

/-- What an event of a terminal saves. -/
structure TerminalSaved where
  (savedWindow savedRate savedBw : ℚ := 0)
  /-- For the commit function. -/
  savedNewBw : ℚ := 0
  msgTime : STime := 0
  savedEjectedBytes : UInt32 := 0

/-- `cc_terminal_start_abatement`. -/
def startAbatement (s : Terminal) (sv : TerminalSaved) : Terminal × TerminalSaved :=
  ({ s with
      isAbatementActive := true
      currentInjectionBandwidthCoef :=
        if s.curAverageRate < 1 / 100 then 1 / 100 else s.curAverageRate },
    { sv with savedBw := s.currentInjectionBandwidthCoef })

/-- `cc_terminal_end_abatement`. -/
def endAbatement (s : Terminal) (sv : TerminalSaved) : Terminal × TerminalSaved :=
  ({ s with isAbatementActive := false, currentInjectionBandwidthCoef := 1 },
    { sv with savedBw := s.currentInjectionBandwidthCoef })

/-- `cc_terminal_receive_abatement_signal`. -/
def receiveAbatementSignal (s : Terminal) (sv : TerminalSaved) : Terminal × TerminalSaved :=
  let s := { s with abatementSignalCount := s.abatementSignalCount + 1 }
  if s.abatementSignalCount = 1 then startAbatement s sv else (s, sv)

/-- `cc_terminal_receive_normal_signal`. -/
def receiveNormalSignal (s : Terminal) (sv : TerminalSaved) : Terminal × TerminalSaved :=
  let s := { s with abatementSignalCount := s.abatementSignalCount - 1 }
  if s.abatementSignalCount = 0 then endAbatement s sv else (s, sv)

/-- `calculate_bandwidth_usage_percent`. -/
def bandwidthUsagePercent (p : TerminalParam) (bytes : ℤ) : ℚ :=
  bytes / (p.terminalConfiguredBandwidth * 1024 ^ 3 / 1000 ^ 3 * p.bandwidthMonitoringWindow)

/-- The window of an epoch. -/
def Terminal.window (s : Terminal) : ℕ := s.windowEpoch.toNat % rollingWindowCount

/-- `cc_terminal_process_bandwidth_check`. -/
def processBandwidthCheck (p : TerminalParam) (s : Terminal) (now : STime) (sv : TerminalSaved) :
    Terminal × TerminalSaved :=
  let usage := bandwidthUsagePercent p (toInt s.ejectedPacketBytes.toNat)
  let removed := s.ejectedRateWindows s.window
  let rate := (s.curAverageRate * rollingWindowCount - removed + usage) / rollingWindowCount
  let rate := if rate < 0 then 0 else rate
  ({ s with
      ejectedRateWindows := update s.ejectedRateWindows s.window usage
      curAverageRate := rate
      currentInjectionBandwidthCoef := rate
      ejectedPacketBytes := 0
      windowEpoch := s.windowEpoch + 1 },
    { sv with
      savedWindow := removed
      savedRate := s.curAverageRate
      savedBw := s.currentInjectionBandwidthCoef
      savedNewBw := if s.isAbatementActive then rate else 1
      msgTime := now
      savedEjectedBytes := s.ejectedPacketBytes })

/-- `cc_terminal_local_congestion_event`, without the heartbeat. -/
def terminalEvent (p : TerminalParam) (s : Terminal) (now : STime) (e : Event)
    (sv : TerminalSaved) : Terminal × TerminalSaved :=
  match e with
  | .signal (.abate _) => receiveAbatementSignal s sv
  | .signal .normal => receiveNormalSignal s sv
  | .bandwidthCheck => processBandwidthCheck p s now sv
  | .simAck => ({ s with ejectedPacketBytes := s.ejectedPacketBytes + p.chunkSize }, sv)

/-- `cc_terminal_local_congestion_event_rc`. -/
def terminalEventRc (p : TerminalParam) (s : Terminal) (e : Event) (sv : TerminalSaved) :
    Terminal :=
  match e with
  | .signal (.abate _) =>
    let s := { s with abatementSignalCount := s.abatementSignalCount - 1 }
    if s.abatementSignalCount = 0 then
      { s with currentInjectionBandwidthCoef := sv.savedBw, isAbatementActive := false }
    else s
  | .signal .normal =>
    let s := { s with abatementSignalCount := s.abatementSignalCount + 1 }
    if s.abatementSignalCount = 1 then
      { s with currentInjectionBandwidthCoef := sv.savedBw, isAbatementActive := true }
    else s
  | .bandwidthCheck =>
    let s := { s with
      windowEpoch := s.windowEpoch - 1
      ejectedPacketBytes := sv.savedEjectedBytes
      currentInjectionBandwidthCoef := sv.savedBw
      curAverageRate := sv.savedRate }
    { s with ejectedRateWindows := update s.ejectedRateWindows s.window sv.savedWindow }
  | .simAck => { s with ejectedPacketBytes := s.ejectedPacketBytes - p.chunkSize }

/-- `cc_terminal_get_current_injection_bandwidth_coef`; `none` is the error branch or a failed
assertion. -/
def currentInjectionBandwidthCoef (s : Terminal) : Option ℚ :=
  if ¬ s.isAbatementActive then some 1
  else if 0 < s.abatementSignalCount then
    let coef := s.currentInjectionBandwidthCoef
    let coef := if coef < 1 / 100 then 1 / 100 else coef
    let coef := if 1 < coef then 1 else coef
    if coef ≤ 1 ∧ 0 < coef then some coef else none
  else none

end CodesSim.Congestion
