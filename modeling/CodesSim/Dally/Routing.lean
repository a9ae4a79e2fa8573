import CodesSim.Dally.KPicks
import CodesSim.Dally.Links
import CodesSim.Dally.Router
import CodesSim.NetMan.Getters

/-!
# Routing

`do_dfdally_routing` for the algorithms that send packets through an intermediate group.  The legacy
algorithm and those that know of failed links ("smart" ones) choose groups by functions of their own
and are left out.

* Packets are routed at a router `self`, with connections `man` and state `s`, to the router
  `fdest`.
* A random number is drawn at the position `numRngs` of the packet, which every draw advances.
* Where the code reads outside of a vector there is no result (`RoutingFault.outOfRange`), nor where
  the search for a free index goes on for ever (`noReturn`).
-/

namespace CodesSim.Dally

open NetMan (SolidManager)
open Outcome
open Synthetic (RandIntegers)

/-- The routing algorithms (`routing_alg_t`). -/
inductive RoutingAlg where
  | minimal
  | nonMinimal
  | adaptive
  | progAdaptive
  deriving DecidableEq

/-- `route_scoring_metric_t`. -/
inductive Scoring where
  | alpha
  | beta
  | gamma
  | delta

/-- The parameters that only the routing reads. -/
structure RoutingParam where
  routing : RoutingAlg
  scoring : Scoring
  adaptiveThreshold : ℤ
  globalKPicks : ℕ

/-- How routing fails. -/
inductive RoutingFault where
  | assertion
  | outOfRange
  | noReturn
  | deadEnd
  | noConnection
  | notImplemented

/-- What the routing is given of the router besides the packet, and of the random numbers; `fuel`
bounds the search for a free index. -/
structure RoutingEnv where
  state : Router
  rng : RandIntegers
  fuel : ℕ

/-! ### Random choices -/

/-- The group id that stands for none is -1. -/
def Msg.intmGroup (msg : Msg) : ℤ :=
  match msg.intmGrpId with
  | some g => g
  | none => -1

/-- A random element of a vector. -/
def pickRandom {α : Type} (rng : RandIntegers) (l : List α) (msg : Msg) :
    Except RoutingFault (α × Msg) :=
  match l[(rng.draw msg.numRngs 0 ((l.length : ℤ) - 1)).toNat]? with
  | some x => .ok (x, { msg with numRngs := msg.numRngs + 1 })
  | none => .error .outOfRange

/-! ### Scores -/

/-- What waits at a port. -/
def portScore (p : Param) (s : Router) (port : ℤ) : ℤ :=
  ((List.range p.numVcs).map (s.ports port.toNat).vcOccupancy).sum +
    (s.ports port.toNat).queuedCount

/-- `dfdally_score_connection`; no connection stands for that of port -1. -/
def scoreConnection (p : Param) (rp : RoutingParam) (s : Router) (conn : Option NetMan.Connection)
    (isMin : Bool) : Except RoutingFault ℤ :=
  match conn with
  | none => .ok intMax
  | some conn =>
    match rp.scoring with
    | .alpha => .ok (portScore p s conn.port)
    | .beta => .error .notImplemented
    | .gamma => .error .notImplemented
    | .delta => .ok (if isMin then portScore p s conn.port else portScore p s conn.port * 2)

/-- The loop that keeps the connections with the lowest score so far. -/
def bestConns (scored : List (NetMan.Connection × ℤ)) : ℤ × List NetMan.Connection :=
  scored.foldl (fun best c =>
    if c.2 ≤ best.1 then if c.2 < best.1 then (c.2, [c.1]) else (best.1, best.2 ++ [c.1])
    else best) (intMax, [])

/-- `get_absolute_best_connection_from_conns`. -/
def getAbsoluteBest (p : Param) (rp : RoutingParam) (env : RoutingEnv)
    (conns : List NetMan.Connection) (msg : Msg) :
    Except RoutingFault (Option NetMan.Connection × Msg) :=
  match conns with
  | [] => .ok (none, msg)
  | [conn] => .ok (some conn, msg)
  | conns => do
    let scores ← conns.mapM fun conn => scoreConnection p rp env.state (some conn) true
    let best := (bestConns (conns.zip scores)).2
    if best = [] then .error .assertion
    else
      let r ← pickRandom env.rng best msg
      return (some r.1, r.2)

/-- `dfdally_get_best_from_k_connections`. -/
def getBestFromK (p : Param) (rp : RoutingParam) (env : RoutingEnv) (conns : List NetMan.Connection)
    (msg : Msg) : Except RoutingFault (Option NetMan.Connection × Msg) :=
  match pollKConnections env.rng env.fuel conns rp.globalKPicks msg.numRngs with
  | none => .error .noReturn
  | some (kConns, pos) => getAbsoluteBest p rp env kConns { msg with numRngs := pos.toNat }

/-! ### The intermediate group -/

/-- The groups of the plane of a router that are neither that of the source nor that of the
destination. -/
def planeGroups (p : Param) (self : ℕ) (msg : Msg) (fdest : ℕ) : List ℤ :=
  ((List.range p.numGroups).map fun i : ℕ => ((p.numGroups * p.planeId self + i : ℕ) : ℤ)).filter
    fun i => i ≠ p.groupId msg.originRouterId ∧ i ≠ p.groupId fdest

/-- The groups that a router has global connections to, without that of the source and that of the
destination, in order. -/
def connectedGroups (p : Param) (man : SolidManager) (msg : Msg) (fdest : ℕ) : List ℤ :=
  (((man.getConnectionsByType .connGlobal).map NetMan.Connection.destGroupId).filter fun g : ℤ =>
    g ≠ p.groupId fdest ∧ g ≠ p.groupId msg.originRouterId).toFinset.sort (· ≤ ·)

/-- The groups that `dfdally_select_intermediate_group` selects from. -/
def intmCandidates (p : Param) (man : SolidManager) (self : ℕ) (msg : Msg) (fdest : ℕ) : List ℤ :=
  if msg.intmGrpId = none then planeGroups p self msg fdest else connectedGroups p man msg fdest

/-- `dfdally_select_intermediate_group`: the group, and the packet before it has the group. -/
def selectIntermediateGroup (p : Param) (man : SolidManager) (rng : RandIntegers) (self : ℕ)
    (msg : Msg) (fdest : ℕ) : Except RoutingFault (ℤ × Msg) :=
  -- the first router selects the first group, and only later ones select again
  if (msg.intmGrpId = none ↔ self = msg.originRouterId) then
    pickRandom rng (intmCandidates p man self msg fdest) msg
  else .error .assertion

/-- The packet with its group. -/
def withGroup (r : ℤ × Msg) : Msg := { r.2 with intmGrpId := some r.1.toNat }

/-! ### Where a packet may go -/

/-- `get_legal_minimal_stops`. -/
def getLegalMinimalStops (p : Param) (man : SolidManager) (self fdest : ℕ) :
    Except RoutingFault (List NetMan.Connection) :=
  if p.groupId self ≠ p.groupId fdest then
    let direct := man.getConnectionsToGroup (p.groupId fdest)
    .ok (if direct ≠ [] then direct else man.getRoutedConnectionsToGroup (p.groupId fdest))
  else if self = fdest then .error .assertion
  else .ok (man.getConnectionsToGid fdest .connLocal)

/-- In the group of the source but not at the first router, a router without a connection to the
intermediate group selects another. -/
def Reselects (p : Param) (man : SolidManager) (self : ℕ) (msg : Msg) : Prop :=
  p.groupId self = p.groupId msg.originRouterId ∧ self ≠ msg.originRouterId ∧
    man.getConnectionsToGroup msg.intmGroup = []

instance (p : Param) (man : SolidManager) (self : ℕ) (msg : Msg) :
    Decidable (Reselects p man self msg) :=
  inferInstanceAs (Decidable (_ ∧ _ ∧ _))

/-- `get_legal_nonminimal_stops`. -/
def getLegalNonminimalStops (p : Param) (man : SolidManager) (rng : RandIntegers) (self : ℕ)
    (msg : Msg) (fdest : ℕ) : Except RoutingFault (List NetMan.Connection × Msg) :=
  if p.groupId self = p.groupId msg.originRouterId then
    let direct := man.getConnectionsToGroup msg.intmGroup
    if self = msg.originRouterId then
      .ok (if direct ≠ [] then direct else man.getRoutedConnectionsToGroup msg.intmGroup, msg)
    else if Reselects p man self msg then do
      let r ← selectIntermediateGroup p man rng self msg fdest
      return (man.getConnectionsToGroup r.1, withGroup r)
    else .ok (direct, msg)
  else .ok ([], msg)

/-! ### The algorithms -/

/-- `dfdally_minimal_routing`. -/
def minimalRouting (p : Param) (man : SolidManager) (env : RoutingEnv) (self : ℕ) (msg : Msg)
    (fdest : ℕ) : Except RoutingFault (Option NetMan.Connection × Msg) := do
  let stops ← getLegalMinimalStops p man self fdest
  if stops = [] then .error .deadEnd
  else
    let r ← pickRandom env.rng stops msg
    return (some r.1, r.2)

/-- `dfdally_nonminimal_routing`. -/
def nonminimalRouting (p : Param) (man : SolidManager) (env : RoutingEnv) (self : ℕ) (msg : Msg)
    (fdest : ℕ) : Except RoutingFault (Option NetMan.Connection × Msg) :=
  if msg.intmGrpId = none then .error .assertion
  else do
    let visited : Bool := msg.isIntmVisited || (p.groupId self : ℤ) = msg.intmGroup
    let msg := { msg with isIntmVisited := visited }
    let next : ℤ := if visited then p.groupId fdest else msg.intmGroup
    let direct := man.getConnectionsToGroup next
    let r ← pickRandom env.rng
      (if direct ≠ [] then direct else man.getRoutedConnectionsToGroup next) msg
    return (some r.1, r.2)

/-- The best of some connections: of `globalKPicks` if they are global, or else of all. -/
def bestOf (p : Param) (rp : RoutingParam) (env : RoutingEnv) (conns : List NetMan.Connection)
    (msg : Msg) : Except RoutingFault (Option NetMan.Connection × Msg) :=
  if conns.head?.map NetMan.Connection.connType = some .connGlobal then
    getBestFromK p rp env conns msg
  else getAbsoluteBest p rp env conns msg

/-- `dfdally_prog_adaptive_routing`. -/
def progAdaptiveRouting (p : Param) (rp : RoutingParam) (man : SolidManager) (env : RoutingEnv)
    (self : ℕ) (msg : Msg) (fdest : ℕ) : Except RoutingFault (Option NetMan.Connection × Msg) := do
  let visited : Bool := msg.isIntmVisited || (p.groupId self : ℤ) = msg.intmGroup
  let msg := { msg with isIntmVisited := visited }
  let minStops ← getLegalMinimalStops p man self fdest
  let nonmin ← getLegalNonminimalStops p man env.rng self msg fdest
  let bestMin ← bestOf p rp env minStops nonmin.2
  let bestNonmin ← bestOf p rp env nonmin.1 bestMin.2
  let minScore ← scoreConnection p rp env.state bestMin.1 true
  let nonminScore ← scoreConnection p rp env.state bestNonmin.1 false
  if bestNonmin.2.pathType = .nonMinimal ∧ visited = false then return bestNonmin
  else if minScore ≤ rp.adaptiveThreshold ∨ minScore ≤ nonminScore then
    return (bestMin.1, bestNonmin.2)
  else return (bestNonmin.1, { bestNonmin.2 with pathType := .nonMinimal })

/-- A packet that comes from a terminal needs an intermediate group. -/
def SelectsFirst (msg : Msg) : Prop := msg.lastHop = .terminalHop ∧ msg.intmGrpId = none

instance (msg : Msg) : Decidable (SelectsFirst msg) := inferInstanceAs (Decidable (_ ∧ _))

/-- The first router selects the intermediate group. -/
def selectFirst (p : Param) (man : SolidManager) (rng : RandIntegers) (self : ℕ) (msg : Msg)
    (fdest : ℕ) : Except RoutingFault Msg :=
  if SelectsFirst msg then (selectIntermediateGroup p man rng self msg fdest).map withGroup
  else .ok msg

/-- `do_dfdally_routing` at the router of the destination. -/
def routeToTerminal (p : Param) (rp : RoutingParam) (man : SolidManager) (env : RoutingEnv)
    (msg : Msg) : Except RoutingFault (Option NetMan.Connection × Msg) :=
  let stops := man.getConnectionsToGid msg.dfdallyDestTerminalId .connTerminal
  if stops = [] then .error .noConnection else getAbsoluteBest p rp env stops msg

/-- Where a packet may go in the group of its destination. -/
def stopsInGroup (p : Param) (man : SolidManager) (self fdest : ℕ) :
    Except RoutingFault (List NetMan.Connection) :=
  let direct := man.getConnectionsToGid fdest .connLocal
  if direct = [] then getLegalMinimalStops p man self fdest else .ok direct

/-- `do_dfdally_routing` in the group of the destination. -/
def routeInGroup (p : Param) (rp : RoutingParam) (man : SolidManager) (env : RoutingEnv) (self : ℕ)
    (msg : Msg) (fdest : ℕ) : Except RoutingFault (Option NetMan.Connection × Msg) := do
  let stops ← stopsInGroup p man self fdest
  if stops = [] then .error .noConnection
  else if rp.routing = .adaptive ∨
    rp.routing = .progAdaptive then getAbsoluteBest p rp env stops msg
  else
    let r ← pickRandom env.rng stops msg
    return (some r.1, r.2)

/-- `do_dfdally_routing`; no connection stands for that of port -1. -/
def doDfdallyRouting (p : Param) (rp : RoutingParam) (man : SolidManager) (env : RoutingEnv)
    (self : ℕ) (msg : Msg) (fdest : ℕ) : Except RoutingFault (Option NetMan.Connection × Msg) :=
  if self = fdest then routeToTerminal p rp man env msg
  else if p.groupId self = p.groupId fdest then routeInGroup p rp man env self msg fdest
  else do
    let msg ← selectFirst p man env.rng self msg fdest
    match rp.routing with
    | .minimal => minimalRouting p man env self msg fdest
    | .nonMinimal =>
      nonminimalRouting p man env self { msg with pathType := .nonMinimal } fdest
    | .adaptive => .error .notImplemented
    | .progAdaptive => progAdaptiveRouting p rp man env self msg fdest

/-! ### What routing leaves of a packet -/

/-- What routing does to a packet: a group that was selected is not taken back. -/
structure Msg.Keeps (msg msg' : Msg) : Prop where
  origin : msg'.originRouterId = msg.originRouterId
  dest : msg'.dfdallyDestTerminalId = msg.dfdallyDestTerminalId
  lastHop : msg'.lastHop = msg.lastHop
  group : msg.intmGrpId ≠ none → msg'.intmGrpId ≠ none

theorem Msg.Keeps.refl (msg : Msg) : msg.Keeps msg := ⟨rfl, rfl, rfl, id⟩

theorem Msg.Keeps.trans {msg msg' msg'' : Msg} (h : msg.Keeps msg') (h' : msg'.Keeps msg'') :
    msg.Keeps msg'' :=
  ⟨h'.origin.trans h.origin, h'.dest.trans h.dest, h'.lastHop.trans h.lastHop,
    fun hg => h'.group (h.group hg)⟩

section

variable {p : Param} {rp : RoutingParam} {man : SolidManager} {env : RoutingEnv}
    {rng : RandIntegers}
  {self fdest : ℕ} {msg : Msg} {r : Option NetMan.Connection × Msg}

theorem pickRandom_keeps {α : Type} {l : List α} {r : α × Msg} (h : pickRandom rng l msg = .ok r) :
    r.1 ∈ l ∧ msg.Keeps r.2 := by
  rw [pickRandom] at h
  split at h
  · rename_i x hx
    cases h
    exact ⟨List.mem_of_getElem? hx, rfl, rfl, rfl, id⟩
  · cases h

theorem pickRandom_some_keeps {stops : List NetMan.Connection}
    (h : (do let r ← pickRandom rng stops msg; return (some r.1, r.2)) = .ok r) :
    msg.Keeps r.2 := by
  obtain ⟨x, hx, h⟩ := bind_eq_ok h
  cases h
  exact (pickRandom_keeps hx).2

theorem getAbsoluteBest_keeps {conns : List NetMan.Connection}
    (h : getAbsoluteBest p rp env conns msg = .ok r) : msg.Keeps r.2 := by
  rw [getAbsoluteBest.eq_def] at h
  split at h
  · cases h
    exact .refl msg
  · cases h
    exact .refl msg
  · obtain ⟨scores, -, h⟩ := bind_eq_ok h
    dsimp only at h
    split at h
    · cases h
    · exact pickRandom_some_keeps h

theorem bestOf_keeps {conns : List NetMan.Connection} (h : bestOf p rp env conns msg = .ok r) :
    msg.Keeps r.2 := by
  rw [bestOf] at h
  split at h
  · rw [getBestFromK] at h
    split at h
    · cases h
    · refine .trans ?_ (getAbsoluteBest_keeps h)
      exact ⟨rfl, rfl, rfl, id⟩
  · exact getAbsoluteBest_keeps h

theorem selectIntermediateGroup_spec {g : ℤ × Msg}
    (h : selectIntermediateGroup p man rng self msg fdest = .ok g) :
    g.1 ∈ intmCandidates p man self msg fdest ∧ msg.Keeps (withGroup g) ∧
      (withGroup g).intmGrpId ≠ none := by
  rw [selectIntermediateGroup] at h
  split at h
  · obtain ⟨hmem, hkeeps⟩ := pickRandom_keeps h
    exact ⟨hmem, ⟨hkeeps.origin, hkeeps.dest, hkeeps.lastHop, fun _ => nofun⟩, nofun⟩
  · cases h

theorem getLegalNonminimalStops_keeps {r : List NetMan.Connection × Msg}
    (h : getLegalNonminimalStops p man rng self msg fdest = .ok r) : msg.Keeps r.2 := by
  rw [getLegalNonminimalStops] at h
  split at h
  · dsimp only at h
    split at h
    · cases h
      exact .refl msg
    split at h
    · obtain ⟨g, hg, h⟩ := bind_eq_ok h
      cases h
      exact (selectIntermediateGroup_spec hg).2.1
    · cases h
      exact .refl msg
  · cases h
    exact .refl msg

theorem progAdaptiveRouting_keeps (h : progAdaptiveRouting p rp man env self msg fdest = .ok r) :
    msg.Keeps r.2 := by
  rw [progAdaptiveRouting] at h
  obtain ⟨minStops, -, h⟩ := bind_eq_ok h
  obtain ⟨nonmin, hnonmin, h⟩ := bind_eq_ok h
  obtain ⟨bestMin, hmin, h⟩ := bind_eq_ok h
  obtain ⟨bestNonmin, hbest, h⟩ := bind_eq_ok h
  obtain ⟨minScore, -, h⟩ := bind_eq_ok h
  obtain ⟨nonminScore, -, h⟩ := bind_eq_ok h
  have hkeeps : msg.Keeps bestNonmin.2 := by
    refine .trans ?_ ((getLegalNonminimalStops_keeps hnonmin).trans
      ((bestOf_keeps hmin).trans (bestOf_keeps hbest)))
    exact ⟨rfl, rfl, rfl, id⟩
  split_ifs at h
  · cases h
    exact hkeeps
  · cases h
    exact hkeeps
  · cases h
    exact hkeeps.trans ⟨rfl, rfl, rfl, id⟩

theorem selectFirst_keeps {msg' : Msg} (h : selectFirst p man rng self msg fdest = .ok msg') :
    msg.Keeps msg' ∧ (SelectsFirst msg → msg'.intmGrpId ≠ none) := by
  rw [selectFirst] at h
  split at h
  · rename_i hselects
    cases hg : selectIntermediateGroup p man rng self msg fdest with
    | error e =>
      rw [hg] at h
      cases h
    | ok g =>
      rw [hg] at h
      cases h
      obtain ⟨-, hkeeps, hgroup⟩ := selectIntermediateGroup_spec hg
      exact ⟨hkeeps, fun _ => hgroup⟩
  · rename_i hselects
    cases h
    exact ⟨.refl msg, fun hs => absurd hs hselects⟩

/-- **What routing leaves of a packet**: at the first router it gets an intermediate group, unless
this is in the group of its destination. -/
theorem doDfdallyRouting_keeps (h : doDfdallyRouting p rp man env self msg fdest = .ok r) :
    msg.Keeps r.2 ∧ (p.groupId self ≠ p.groupId fdest → SelectsFirst msg →
      r.2.intmGrpId ≠ none) := by
  rw [doDfdallyRouting] at h
  split_ifs at h with hdest hgroup
  · refine ⟨?_, fun hne => absurd (congrArg p.groupId hdest) hne⟩
    rw [routeToTerminal] at h
    split at h
    · cases h
    · exact getAbsoluteBest_keeps h
  · refine ⟨?_, fun hne => absurd hgroup hne⟩
    rw [routeInGroup] at h
    obtain ⟨stops, -, h⟩ := bind_eq_ok h
    split_ifs at h
    · exact getAbsoluteBest_keeps h
    · exact pickRandom_some_keeps h
  · obtain ⟨sent, hsent, h⟩ := bind_eq_ok h
    obtain ⟨hkeeps, hselects⟩ := selectFirst_keeps hsent
    have hrest : sent.Keeps r.2 := by
      split at h
      · rw [minimalRouting] at h
        obtain ⟨stops, -, h⟩ := bind_eq_ok h
        split at h
        · cases h
        · exact pickRandom_some_keeps h
      · rw [nonminimalRouting] at h
        split at h
        · cases h
        · refine .trans ?_ (pickRandom_some_keeps h)
          exact ⟨rfl, rfl, rfl, id⟩
      · cases h
      · exact progAdaptiveRouting_keeps h
    exact ⟨hkeeps.trans hrest, fun _ hs => hrest.group (hselects hs)⟩

end

end CodesSim.Dally
