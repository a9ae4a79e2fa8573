import CodesSim.Dally.Terminal

/-!
# The ports of a dragonfly router

What a router has for each port (`Port`), and how it chooses the VC that sends next
(`getNextRouterVcg`): the first one with a chunk of the levels within their share of the bandwidth,
and if there is none the next one with a chunk after the one served last.
-/

namespace CodesSim.Dally

/-- What a router has for each port. -/
structure Port where
  /-- Bytes of each VC that are pending here, on the link or waiting at the other end. -/
  vcOccupancy : ℕ → ℤ
  pendingMsgs : ℕ → List Msg
  queuedMsgs : ℕ → List Msg
  queuedCount : ℤ
  inSendLoop : ℕ
  lastQosLvl : ℕ
  qosStatus : ℕ → QosStatus
  qosData : ℕ → ℤ
  (nextOutputAvailableTime lastBufFull busyTime busyTimeSample busyTimeRossSample : STime)
  (stalledChunks stalledChunksRossSample totalChunks linkTraffic linkTrafficSample : ℤ)
  (linkTrafficRossSample : ℤ)

/-- A router (`router_state`). -/
structure Router where
  ports : ℕ → Port
  isMonitoringBw : Bool
  lastTime : STime
  st : List Msg
  /-- Position of the random number generator of the LP. -/
  rng : ℕ

/-- A port after `router_dally_init`. -/
def Port.init : Port where
  vcOccupancy _ := 0
  pendingMsgs _ := []
  queuedMsgs _ := []
  queuedCount := 0
  inSendLoop := 0
  lastQosLvl := 0
  qosStatus _ := .active
  qosData _ := 0
  nextOutputAvailableTime := 0
  lastBufFull := 0
  busyTime := 0
  busyTimeSample := 0
  busyTimeRossSample := 0
  stalledChunks := 0
  stalledChunksRossSample := 0
  totalChunks := 0
  linkTraffic := 0
  linkTrafficSample := 0
  linkTrafficRossSample := 0

/-! ### Sending -/

/-- The class of a port in `router_packet_send`. -/
def portClass (p : Param) (port : ℕ) : ConnectionType :=
  if port < p.intraGrpRadix then .connLocal
  else if port < p.intraGrpRadix + p.numGlobalChannels then .connGlobal
  else .connTerminal

/-- Bandwidth and delay of a class of ports. -/
def linkSpeed (p : Param) : ConnectionType → ℚ × STime
  | .connLocal => (p.localBandwidth, p.localDelay)
  | .connGlobal => (p.globalBandwidth, p.globalDelay)
  | _ => (p.cnBandwidth, p.cnDelay)

/-- `get_rtr_bandwidth_consumption`; `none` is a failed assertion.  The number of global channels
stands for the ports they have. -/
def getRtrBandwidthConsumption (p : Param) (x : Port) (k port : ℕ) : Option ℤ :=
  if k ≤ qLow ∧ port < p.intraGrpRadix + p.numGlobalChannels + p.cnRadix then
    some (percentBw (x.qosData k) (truncate (linkSpeed p (portClass p port)).1))
  else none

/-- Mark a level that has used up its share in this window. -/
def Port.checkBw (p : Param) (port : ℕ) (x : Port × Saved) (k : ℕ) : Option (Port × Saved) :=
  if x.1.qosStatus k ≠ .overBw then
    (getRtrBandwidthConsumption p x.1 k port).map fun consumption =>
      if consumption > p.qosBandwidths k then
        ({ x.1 with qosStatus := Function.update x.1.qosStatus k .overBw },
          { x.2 with
            qosReset1 := if k = 0 then 1 else x.2.qosReset1
            qosReset2 := if k = 1 then 1 else x.2.qosReset2 })
      else x
  else some x

/-- The VCs of a QoS level. -/
def vcsOf (p : Param) (lvl : ℕ) : List ℕ := (List.range p.vcsPerQos).map (lvl * p.vcsPerQos + ·)

/-- VC `k` has a chunk to send. -/
def Port.hasPending (x : Port) (k : ℕ) : Bool := !(x.pendingMsgs k).isEmpty

/-- The first VC with a chunk in the order of the levels that pass `q`. -/
def Port.firstPending (p : Param) (x : Port) (q : ℕ → Bool) : Option ℕ :=
  (((List.range p.numQosLevels).filter q).flatMap (vcsOf p)).find? x.hasPending

/-- The first VC with a chunk after the one served last. -/
def Port.rrPending (p : Param) (x : Port) : Option ℕ :=
  ((List.range p.numVcs).map fun i => (x.lastQosLvl + 1 + i) % p.numVcs).find? x.hasPending

/-- The VC that `get_next_router_vcg` takes when the statuses are up to date, and the port and the
saved fields it has changed. -/
def chooseRouterVcg (p : Param) (y : Port × Saved) : Option ℕ × Port × Saved :=
  let first := if p.numQosLevels > 1 then
    y.1.firstPending p fun i => y.1.qosStatus i = .active else none
  match first, y.1.rrPending p with
  | some k, _ => (some k, y)
  | none, some k =>
    (some k, { y.1 with lastQosLvl := k }, { y.2 with lastSavedQos := y.1.lastQosLvl })
  | none, none => (none, y.1, { y.2 with lastSavedQos := y.1.lastQosLvl })

/-- `get_next_router_vcg`; `none` is a failed assertion. -/
def getNextRouterVcg (p : Param) (port : ℕ) (x : Port) (sv : Saved) :
    Option (Option ℕ × Port × Saved) :=
  (if p.numQosLevels > 1 then (List.range p.numQosLevels).foldlM (Port.checkBw p port) (x, sv)
    else some (x, sv)).map (chooseRouterVcg p)

end CodesSim.Dally
