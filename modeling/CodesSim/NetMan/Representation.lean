import CodesSim.NetMan.Solid

/-!
# What the connection managers represent

After `solidify_network` the manager of a router finds each of its connections by its port, the maps
without failed connections are the full maps filtered, and as many connections have failed as there
are failures.  There are two exceptions.

* `_next_hop_routed_connections_to_group_map` has the connections to a router only if there is more
  than one, and the map without failed connections counts the working ones: where one of several
  works, the full map has them all and the other map none (`LoneLink`).
* When a link to a terminal fails, the first injection link of its rail fails, also if it has failed
  before; so with two links of one rail two failures meet one injection link (`SameRailTwice`).

`represents_iff` says that the managers represent the network if and only if neither occurs.
-/

namespace CodesSim.NetMan

open Groups

variable {p : NetworkParam} {m : NetworkManager p} {links : List Link} {failures : List LinkInfo}

/-! ### The representation -/

/-- A global link of a list joins two groups. -/
def Joined (p : NetworkParam) (between : ℤ → ℤ → List Link) (g g' : ℤ) : Prop :=
  ∃ i j, ∃ l ∈ between i j, l.connType = .connGlobal ∧
    ((p.groupId i, p.groupId j) = (g, g') ∨ (p.groupId i, p.groupId j) = (g', g))

/-- The links from a router to a router that work. -/
def workingBetween (links : List Link) (failures : List LinkInfo) (i j : ℤ) : List Link :=
  (linksBetween links i j).drop (failuresBetween failures i j)

/-- The connections of a router to a router. -/
def SolidManager.connectionsTo (m : SolidManager) (j : ℤ) : List Connection :=
  get m.intraGroupConnectionsGID j ++ get m.globalConnections j

/-- The number of failed links of a rail. -/
def failedOfRail (conns : List Connection) (rail : ℤ) : ℕ :=
  conns.countP fun conn => conn.isFailed && conn.railOrPlanarId = rail

/-- **The managers represent the network.** -/
structure Represents (p : NetworkParam) (links : List Link) (failures : List LinkInfo)
    (net : Network) : Prop where
  ports : ∀ i < p.totalRouters, (net.routers i).Ports
  nofail : (∀ i < p.totalRouters, (net.routers i).Nofail) ∧
    ∀ t < p.totalTerminals, (net.terminals t).Nofail
  /-- Each router knows which groups are joined, and which by a link that works. -/
  groups : ∀ i < p.totalRouters, ∀ g g',
    (g' ∈ get (net.routers i).groupGroupConnectionMap g ↔ Joined p (linksBetween links) g g') ∧
    (g' ∈ get (net.routers i).groupGroupConnectionMapNofail g ↔
      Joined p (workingBetween links failures) g g')
  /-- As many links have failed as there are failures. -/
  failed : ∀ i : ℕ, i < p.totalRouters → ∀ j,
    ((net.routers i).connectionsTo j).countP (·.isFailed) = failuresBetween failures i j
  /-- Of the links to a terminal as many have failed as of its injection links. -/
  injection : ∀ i t : ℕ, i < p.totalRouters → t < p.totalTerminals → ∀ rail,
    failedOfRail (get (net.routers i).terminalConnections t) rail =
      failedOfRail (get (net.terminals t).injectionConnections i) rail

/-- The local links of a list. -/
def localLinks (links : List Link) : List Link := links.filter fun l => l.connType = .connLocal

/-- **One of several.**  A router has more than one local link to a router with a global link, and
one of them works. -/
def LoneLink (p : NetworkParam) (links : List Link) (failures : List LinkInfo) : Prop :=
  ∃ i : ℕ, i < p.totalRouters ∧ ∃ l ∈ links, l.connType = .connGlobal ∧
    p.groupId l.srcGid = p.groupId i ∧
    (∃ g : ℕ, g < p.totalGroups ∧ (g : ℤ) = p.groupId l.destGid) ∧
    1 < (localLinks (linksBetween links i l.srcGid)).length ∧
    (localLinks (workingBetween links failures i l.srcGid)).length = 1

/-- **One rail twice.**  Of the links from a router to a terminal two fail that have the same
rail. -/
def SameRailTwice (p : NetworkParam) (links : List Link) (failures : List LinkInfo) : Prop :=
  ∃ i t : ℕ, i < p.totalRouters ∧ t < p.totalTerminals ∧ ∃ rail,
    1 < ((linksToTerminal links i t).take (failuresToTerminal failures i t)).countP
      fun l => l.railId = rail

theorem Linked.working (h : Linked links m) (hfailed : Failed failures m) (i j : ℤ) :
    ((deref m.routerConns (m.routerToRouterConnectionMap (i, j))).filter (!·.isFailed)).map
      Connection.healthy = (workingBetween links failures i j).map (routerConn p ·.toLinkInfo) := by
  rw [(hfailed.routers i j).filter_working, List.map_drop, h.between, workingBetween, List.map_drop]

theorem SamePorts.symm {conns conns' : List Connection} (h : SamePorts conns conns') :
    SamePorts conns' conns := Eq.symm h

theorem SamePorts.exists {conns conns' : List Connection} (h : SamePorts conns conns')
    {P : Connection → Prop} (hP : ∀ conn, P conn.noPort ↔ P conn) (hex : ∃ conn ∈ conns, P conn) :
    ∃ conn ∈ conns', P conn := by
  by_contra hno
  obtain ⟨conn, hconn, hp⟩ := hex
  exact h.symm.forall (P := fun conn => ¬ P conn) (fun conn => not_congr (hP conn))
    (fun conn hconn hp => hno ⟨conn, hconn, hp⟩) conn hconn hp

theorem groups_eq_some {conn : Connection} {l : Link}
    (hl : conn.healthy = routerConn p l.toLinkInfo)
    {i j : ℤ} (hends : conn.ends = (i, j)) (k : ℤ × ℤ) : conn.groups = some k ↔
      l.connType = .connGlobal ∧ (p.groupId i, p.groupId j) = k := by
  have hty : conn.connType = l.connType := congrArg Connection.connType hl
  have hsrc : l.srcGid = i := (congrArg Connection.srcGid hl).symm.trans (congrArg Prod.fst hends)
  have hdest : l.destGid = j :=
    (congrArg Connection.destGid hl).symm.trans (congrArg Prod.snd hends)
  have hsg : conn.srcGroupId = p.groupId i := hsrc ▸ congrArg Connection.srcGroupId hl
  have hdg : conn.destGroupId = p.groupId j := hdest ▸ congrArg Connection.destGroupId hl
  rw [Connection.groups, hty, hsg, hdg]
  split_ifs with hglobal
  · simp [hglobal]
  · simp [hglobal]

variable {Q : Connection → Bool}

variable {L : List Link}

theorem Linked.link_of_conn (h : Linked links m) {i j : ℤ}
    (hL : ((deref m.routerConns (m.routerToRouterConnectionMap (i, j))).filter Q).map
      Connection.healthy = L.map (routerConn p ·.toLinkInfo)) {conn : Connection}
    (hconn : conn ∈ m.routerConns) (hends : conn.ends = (i, j)) (hq : Q conn = true) :
    ∃ l ∈ L, conn.healthy = routerConn p l.toLinkInfo := by
  have hmem : conn ∈ (deref m.routerConns (m.routerToRouterConnectionMap (i, j))).filter Q := by
    rw [deref, h.routerRouter.deref, List.mem_filter, List.mem_filter, decide_eq_true_eq]
    exact ⟨⟨hconn, hends⟩, hq⟩
  have hlink : conn.healthy ∈ L.map (routerConn p ·.toLinkInfo) := hL ▸ List.mem_map_of_mem hmem
  obtain ⟨l, hl, heq⟩ := List.mem_map.1 hlink
  exact ⟨l, hl, heq.symm⟩

theorem Linked.conn_of_link (h : Linked links m) {i j : ℤ}
    (hL : ((deref m.routerConns (m.routerToRouterConnectionMap (i, j))).filter Q).map
      Connection.healthy = L.map (routerConn p ·.toLinkInfo)) {l : Link} (hl : l ∈ L) :
    ∃ conn ∈ m.routerConns, conn.ends = (i, j) ∧ Q conn = true ∧
      conn.healthy = routerConn p l.toLinkInfo := by
  have hlink := List.mem_map_of_mem (f := fun l : Link => routerConn p l.toLinkInfo) hl
  rw [← hL] at hlink
  obtain ⟨conn, hconn, heq⟩ := List.mem_map.1 hlink
  rw [deref, h.routerRouter.deref, List.mem_filter, List.mem_filter, decide_eq_true_eq] at hconn
  exact ⟨conn, hconn.1.1, hconn.1.2, hconn.2, heq⟩

theorem joined_iff (h : Linked links m) {conns : List Connection}
    (hconns : SamePorts m.routerConns conns)
    (hQ : ∀ conn, Q conn.noPort = Q conn) {between : ℤ → ℤ → List Link}
    (hbetween : ∀ i j, ((deref m.routerConns (m.routerToRouterConnectionMap (i, j))).filter Q).map
      Connection.healthy = (between i j).map (routerConn p ·.toLinkInfo)) {g g' : ℤ} :
    (∃ conn ∈ conns, (conn.groups = some (g, g') ∨ conn.groups = some (g', g)) ∧ Q conn = true) ↔
      Joined p between g g' := by
  have hP : ∀ conn : Connection,
      ((conn.noPort.groups = some (g, g') ∨ conn.noPort.groups = some (g', g)) ∧
        Q conn.noPort = true) ↔
        (conn.groups = some (g, g') ∨ conn.groups = some (g', g)) ∧ Q conn = true := by
    intro conn
    rw [hQ]
    rfl
  have hports : (∃ conn ∈ conns, (conn.groups = some (g, g') ∨ conn.groups = some (g', g)) ∧
      Q conn = true) ↔ ∃ conn ∈ m.routerConns,
        (conn.groups = some (g, g') ∨ conn.groups = some (g', g)) ∧ Q conn = true :=
    ⟨hconns.symm.exists hP, hconns.exists hP⟩
  rw [hports]
  constructor
  · rintro ⟨conn, hconn, hgroups, hq⟩
    obtain ⟨l, hl, heq⟩ := h.link_of_conn (hbetween _ _) hconn rfl hq
    rw [groups_eq_some heq rfl, groups_eq_some heq rfl, ← and_or_left] at hgroups
    exact ⟨_, _, l, hl, hgroups⟩
  · rintro ⟨i, j, l, hl, hgroups⟩
    obtain ⟨conn, hconn, hends, hq, heq⟩ := h.conn_of_link (hbetween i j) hl
    refine ⟨conn, hconn, ?_, hq⟩
    rw [groups_eq_some heq hends, groups_eq_some heq hends, ← and_or_left]
    exact hgroups

theorem length_filter_healthy {conns : List Connection} {f : Link → Connection}
    (h : conns.map Connection.healthy = L.map f) {P : Connection → Bool}
    (hP : ∀ conn, P conn.healthy = P conn) :
      (conns.filter P).length = (L.filter (P ∘ f)).length := by
  have hlen := congrArg List.length (filter_healthy hP h)
  rwa [List.length_map, List.length_map] at hlen

section Main

variable {net : Network} {conns : List Connection}

/-- The links of a type. -/
def ofType (ty : ConnectionType) (links : List Link) : List Link := links.filter fun l =>
    l.connType = ty

/-- **How many connections of a type** a router has to a router, and how many of them work. -/
theorem length_router (h : Linked links m) (hfailed : Failed failures m) {i j : ℤ}
    {ty : ConnectionType}
    (hconns : SamePorts ((deref m.routerConns
      (m.routerToRouterConnectionMap (i, j))).filter fun conn => conn.connType = ty) conns) :
    conns.length = (ofType ty (linksBetween links i j)).length ∧
      (conns.filter (!·.isFailed)).length =
      (ofType ty (workingBetween links failures i j)).length := by
  constructor
  · rw [hconns.length]
    exact length_filter_healthy (h.between i j) fun _ => rfl
  · rw [(hconns.filter (P := fun conn => !conn.isFailed) fun _ => rfl).length, List.filter_filter]
    have hworking := length_filter_healthy (P := fun conn => conn.connType = ty)
      (h.working hfailed i j) fun _ => rfl
    rw [List.filter_filter] at hworking
    refine Eq.trans ?_ hworking
    congr 1
    exact List.filter_congr fun conn _ => Bool.and_comm _ _

variable {i : ℕ}

theorem loneHop_iff (h : Linked links m) (hfailed : Failed failures m)
    (hconns : SamePorts m.routerConns conns) {intra : Std.ExtTreeMap ℤ (List Connection)}
    (hintra : ∀ j : ℤ, SamePorts
      ((deref m.routerConns (m.routerToRouterConnectionMap (i, j))).filter
      fun conn => conn.connType = .connLocal) (get intra j)) :
    LoneHop ((m.setRouterConns conns).routedToGroups i) intra ↔
      ∃ l ∈ links, l.connType = .connGlobal ∧ p.groupId l.srcGid = p.groupId i ∧
        (∃ g : ℕ, g < p.totalGroups ∧ (g : ℤ) = p.groupId l.destGid) ∧
        1 < (localLinks (linksBetween links i l.srcGid)).length ∧
        (localLinks (workingBetween links failures i l.srcGid)).length = 1 := by
  have hlen (j : ℤ) := (length_router h hfailed (hintra j)).1
  have hlen' (j : ℤ) := (length_router h hfailed (hintra j)).2
  change (∃ g, ∃ conn ∈ get ((m.setRouterConns conns).routedToGroups i) g, _ ∧ _) ↔ _
  simp only [hlen, hlen']
  constructor
  · rintro ⟨g, conn, hconn, hmany, hone⟩
    rw [get_routedToGroups h hconns] at hconn
    split_ifs at hconn with hg
    · obtain ⟨hconn, hgroups⟩ := List.mem_filter.1 hconn
      have hgroups : conn.groups = some (p.groupId i, g) := by simpa using hgroups
      obtain ⟨conn₀, h₀, hgroups₀, hsrc⟩ := hconns.symm.exists
        (P := fun conn' => conn'.groups = some (p.groupId i, g) ∧ conn'.srcGid = conn.srcGid)
        (fun _ => Iff.rfl) ⟨conn, hconn, hgroups, rfl⟩
      have hlink : conn₀.healthy ∈ (routerLinks links).map (routerConn p ·.toLinkInfo) :=
        h.routers ▸ List.mem_map_of_mem h₀
      obtain ⟨l, hl, heq⟩ := List.mem_map.1 hlink
      obtain ⟨hglobal, hpair⟩ := (groups_eq_some heq.symm rfl _).1 hgroups₀
      obtain ⟨hi, hg'⟩ := Prod.ext_iff.1 hpair
      have hlsrc : l.srcGid = conn₀.srcGid := congrArg Connection.srcGid heq
      have hldest : l.destGid = conn₀.destGid := congrArg Connection.destGid heq
      rw [← hsrc, ← hlsrc] at hmany hone
      rw [← hlsrc] at hi
      rw [← hldest] at hg'
      obtain ⟨j, hj, hjg⟩ := hg
      exact ⟨l, (List.mem_filter.1 hl).1, hglobal, hi, ⟨j, hj, hjg.trans hg'.symm⟩, hmany, hone⟩
    · cases hconn
  · rintro ⟨l, hl, hglobal, hi, hg, hmany, hone⟩
    have hlink : routerConn p l.toLinkInfo ∈ m.routerConns.map Connection.healthy := by
      rw [h.routers]
      refine List.mem_map_of_mem (f := fun l : Link => routerConn p l.toLinkInfo)
        (List.mem_filter.2 ⟨hl, ?_⟩)
      simp [hglobal]
    obtain ⟨conn₀, h₀, heq⟩ := List.mem_map.1 hlink
    have hlsrc : l.srcGid = conn₀.srcGid := (congrArg Connection.srcGid heq).symm
    have hldest : l.destGid = conn₀.destGid := (congrArg Connection.destGid heq).symm
    have hgroups₀ : conn₀.groups = some (p.groupId i, p.groupId l.destGid) :=
      (groups_eq_some heq rfl _).2 ⟨hglobal, Prod.ext (hlsrc ▸ hi) (hldest ▸ rfl)⟩
    obtain ⟨conn, hconn, hgroups, hsrc⟩ := hconns.exists
      (P := fun conn' => conn'.groups = some (p.groupId i, p.groupId l.destGid) ∧
        conn'.srcGid = l.srcGid) (fun _ => Iff.rfl) ⟨conn₀, h₀, hgroups₀, hlsrc.symm⟩
    refine ⟨p.groupId l.destGid, conn, ?_, ?_, ?_⟩
    · rw [get_routedToGroups h hconns, if_pos hg]
      exact List.mem_filter.2 ⟨hconn, by simpa using hgroups⟩
    · rw [hsrc]
      exact hmany
    · rw [hsrc]
      exact hone

theorem failedOfRail_eq (h : Linked links m) (hfailed : Failed failures m) (i t rail : ℤ) :
    failedOfRail (deref m.terminalConns (m.routerToTerminalConnectionMap (i, t))) rail =
      ((linksToTerminal links i t).take (failuresToTerminal failures i t)).countP
        (fun l => l.railId = rail) ∧
    failedOfRail (deref m.injectionConns (m.terminalToRouterConnectionMap (t, i))) rail =
      if 0 < ((linksToTerminal links i t).take (failuresToTerminal failures i t)).countP
        (fun l => l.railId = rail) then 1 else 0 := by
  have hrails : (deref m.terminalConns (m.routerToTerminalConnectionMap (i, t))).map
      Connection.railOrPlanarId = (linksToTerminal links i t).map fun l => l.railId := by
    have hto := congrArg (List.map Connection.railOrPlanarId) (h.toTerminal i t)
    rw [List.map_map, List.map_map] at hto
    exact hto
  have hcount : ∀ (l : List Connection) (n : ℕ), (l.take n).countP (fun conn =>
      decide (conn.railOrPlanarId = rail)) =
        ((l.map Connection.railOrPlanarId).take n).countP fun r => decide (r = rail) := by
    intro l n
    rw [← List.map_take, List.countP_map]
    rfl
  have hlinks : ((linksToTerminal links i t).take (failuresToTerminal failures i t)).countP
      (fun l => decide (l.railId = rail)) =
      (((linksToTerminal links i t).map fun l => l.railId).take
        (failuresToTerminal failures i t)).countP fun r => decide (r = rail) := by
    rw [← List.map_take, List.countP_map]
    rfl
  constructor
  · have hfilter : failedOfRail (deref m.terminalConns (m.routerToTerminalConnectionMap (i, t)))
      rail =
        ((deref m.terminalConns (m.routerToTerminalConnectionMap (i, t))).filter
          (·.isFailed)).countP fun conn => conn.railOrPlanarId = rail := by
      rw [failedOfRail, List.countP_filter]
      exact List.countP_congr fun conn _ => by simp [and_comm]
    rw [hfilter, (hfailed.terminals i t).filter_failed, hcount, hrails, hlinks]
  · rw [failedOfRail, (hfailed.back i t).countP rail, hrails, hlinks]
    have hiff : rail ∈ ((linksToTerminal links i t).map fun l => l.railId).take
        (failuresToTerminal failures i t) ↔ 0 < (((linksToTerminal links i t).map
          fun l => l.railId).take (failuresToTerminal failures i t)).countP fun r =>
            decide (r = rail) := by
      rw [List.countP_pos_iff]
      simp
    simp only [hiff]

variable {man : ConnectionManager}

variable {A : List Connection}

theorem Holds.told (h : Holds A man)
    (routed : Std.ExtTreeMap ℤ (List Connection)) (es : List ((ℤ × ℤ) × List Connection)) :
    Holds A ((man.setRoutedConnectionsToGroups routed).addGroupGroupConnectionInformation es) := by
  obtain ⟨full, nofail, heq⟩ := groupGroup_frame (man.setRoutedConnectionsToGroups routed) es
  rw [heq]
  exact ⟨h.manType, h.noInjection, h.intra, h.intraGID, h.global, h.terminal, h.injection,
    h.localPorts, h.globalPorts, h.terminalPorts, h.localLe, h.globalLe, h.terminalLe, h.ports,
    h.onPorts⟩

theorem routed_told (man : ConnectionManager) (routed : Std.ExtTreeMap ℤ (List Connection))
    (es : List ((ℤ × ℤ) × List Connection)) :
    ((man.setRoutedConnectionsToGroups routed).addGroupGroupConnectionInformation
      es).routedConnectionsToGroupMap = routed ∧
    ((man.setRoutedConnectionsToGroups routed).addGroupGroupConnectionInformation
      es).intraGroupConnectionsGID = man.intraGroupConnectionsGID := by
  obtain ⟨full, nofail, heq⟩ := groupGroup_frame (man.setRoutedConnectionsToGroups routed) es
  rw [heq]
  exact ⟨rfl, rfl⟩

/-- **What a router of a solidified network has been told.** -/
theorem solidify_router {enabled : Bool}
    (hnet : solidify p enabled links failures = some net) (hi : i < p.totalRouters) :
    ∃ (m : NetworkManager p) (conns A B : List Connection), Linked links m ∧ Failed failures m ∧
      SamePorts m.routerConns conns ∧ SamePorts (fromSrc m.routerConns i) A ∧
      SamePorts (fromSrc m.terminalConns i) B ∧ Holds (A ++ B) (net.routers i).toConnectionManager ∧
      (net.routers i).routedConnectionsToGroupMap = (m.setRouterConns conns).routedToGroups i ∧
      net.routers i = (net.routers i).toConnectionManager.solidifyConnections := by
  obtain ⟨m, h, hfailed, hadd⟩ := solidify_eq_some hnet
  obtain ⟨conns, hconns, hrouters⟩ := addConnsToConnectionManagers_routers h hadd
  obtain ⟨man, A, B, hman, hA, hB, -, -, -, hrouter⟩ := hrouters i hi
  refine ⟨m, conns, A, B, h, hfailed, hconns, hA, hB, ?_, ?_, ?_⟩
  · rw [hrouter]
    exact hman.told _ _
  · rw [hrouter]
    exact (routed_told man _ _).1
  · rw [hrouter]
    rfl

section

variable (h : Linked links m)
include h

theorem length_injections (t : ℤ) : (fromSrc m.injectionConns t).length =
    links.countP fun l => l.connType = .connTerminal ∧ l.destGid = t := by
  have hlen := length_filter_healthy (P := fun conn => conn.srcGid = t) h.injections fun _ => rfl
  rw [fromSrc, hlen, terminalLinks, List.filter_filter, ← List.countP_eq_length_filter]
  refine List.countP_congr fun l _ => ?_
  simp [injectionConn, and_comm]

theorem countP_connectionsTo (hfailed : Failed failures m) {B : List Connection}
    (hA : SamePorts (fromSrc m.routerConns i) A) (hB : SamePorts (fromSrc m.terminalConns i) B)
    {man : SolidManager} (hman : Holds (A ++ B) man.toConnectionManager) (j : ℤ) :
    (man.connectionsTo j).countP (·.isFailed) = failuresBetween failures i j := by
  have hty : ConnectionType.connLocal ≠ .connTerminal := nofun
  have hty' : ConnectionType.connGlobal ≠ .connTerminal := nofun
  have hlocal := (get_router h hA hB hty hman.intraGID j).countP
    (P := (·.isFailed)) fun _ => rfl
  have hglobal := (get_router h hA hB hty' hman.global j).countP
    (P := (·.isFailed)) fun _ => rfl
  rw [SolidManager.connectionsTo, List.countP_append, hlocal, hglobal,
    ← (hfailed.routers i j).countP]
  have hmem : ∀ conn ∈ deref m.routerConns (m.routerToRouterConnectionMap (i, j)),
      conn.connType = .connLocal ∨ conn.connType = .connGlobal := by
    intro conn hconn
    rw [deref, h.routerRouter.deref] at hconn
    exact h.router_type (List.mem_filter.1 hconn).1
  generalize deref m.routerConns (m.routerToRouterConnectionMap (i, j)) = conns at hmem
  induction conns with
  | nil => rfl
  | cons conn conns ih =>
    have ih := ih fun conn' hconn' => hmem conn' (List.mem_cons_of_mem _ hconn')
    obtain hty | hty := hmem conn List.mem_cons_self <;>
      simp only [List.filter_cons, hty, List.countP_cons] <;>
      simp [← ih, List.countP_cons] <;> omega

theorem mem_groupGroups_or (hconns : SamePorts m.routerConns conns) (k k' : ℤ × ℤ)
    {P : Connection → Prop} :
    (∃ e ∈ (m.setRouterConns conns).groupGroups, (∃ conn ∈ e.2, P conn) ∧ (e.1 = k ∨ e.1 = k')) ↔
      ∃ conn ∈ conns, (conn.groups = some k ∨ conn.groups = some k') ∧ P conn := by
  have hk := mem_groupGroups h hconns (k := k) (P := P)
  have hk' := mem_groupGroups h hconns (k := k') (P := P)
  constructor
  · rintro ⟨e, he, hex, rfl | rfl⟩
    · obtain ⟨conn, hconn, hgroups, hP⟩ := hk.1 ⟨e, he, hex, rfl⟩
      exact ⟨conn, hconn, .inl hgroups, hP⟩
    · obtain ⟨conn, hconn, hgroups, hP⟩ := hk'.1 ⟨e, he, hex, rfl⟩
      exact ⟨conn, hconn, .inr hgroups, hP⟩
  · rintro ⟨conn, hconn, hgroups | hgroups, hP⟩
    · obtain ⟨e, he, hex, heq⟩ := hk.2 ⟨conn, hconn, hgroups, hP⟩
      exact ⟨e, he, hex, .inl heq⟩
    · obtain ⟨e, he, hex, heq⟩ := hk'.2 ⟨conn, hconn, hgroups, hP⟩
      exact ⟨e, he, hex, .inr heq⟩

/-- **What a router represents.** -/
theorem router_represents (hfailed : Failed failures m)
    (hconns : SamePorts m.routerConns conns) {router : SolidManager}
    (hgiven : Given m conns i router) :
    router.Ports ∧ (∀ j, (router.connectionsTo j).countP (·.isFailed) = failuresBetween
      failures i j) ∧
      (∀ g g', (g' ∈ get router.groupGroupConnectionMap g ↔ Joined p (linksBetween links) g g') ∧
        (g' ∈ get router.groupGroupConnectionMapNofail g ↔
          Joined p (workingBetween links failures) g g')) ∧
      (router.Nofail ↔ ¬ ∃ l ∈ links, l.connType = .connGlobal ∧ p.groupId l.srcGid = p.groupId i ∧
        (∃ g : ℕ, g < p.totalGroups ∧ (g : ℤ) = p.groupId l.destGid) ∧
        1 < (localLinks (linksBetween links i l.srcGid)).length ∧
        (localLinks (workingBetween links failures i l.srcGid)).length = 1) := by
  obtain ⟨man, A, B, hman, hA, hB, hempty, hempty', -, hrouter⟩ := hgiven
  have hholds : Holds (A ++ B) router.toConnectionManager := hrouter ▸ hman.told _ _
  obtain ⟨hrouted, hintra⟩ := routed_told man ((m.setRouterConns conns).routedToGroups i)
    (m.setRouterConns conns).groupGroups
  refine ⟨hholds.ports_of, countP_connectionsTo h hfailed hA hB hholds, fun g g' => ?_, ?_⟩
  · subst hrouter
    obtain ⟨hfull, hnofail⟩ := mem_groupGroup
      (man.setRoutedConnectionsToGroups ((m.setRouterConns conns).routedToGroups i))
      (m.setRouterConns conns).groupGroups g g'
    constructor
    · have hnone : g' ∉ get man.groupGroupConnectionMap g := by simp [hempty]
      refine hfull.trans ((or_iff_right hnone).trans ?_)
      rw [← joined_iff h hconns (Q := fun _ => true) (fun _ => rfl) fun i j => by
        rw [List.filter_true]
        exact h.between i j]
      have hentries := mem_groupGroups_or h hconns (g, g') (g', g) (P := fun _ => True)
      simpa using hentries
    · have hnone : g' ∉ get man.groupGroupConnectionMapNofail g := by simp [hempty']
      refine hnofail.trans ((or_iff_right hnone).trans ?_)
      rw [← joined_iff h hconns (Q := fun conn => !conn.isFailed) (fun _ => rfl)
        (h.working hfailed)]
      have hentries := mem_groupGroups_or h hconns (g, g') (g', g)
        (P := fun conn => conn.isFailed = false)
      simpa using hentries
  · rw [hrouter, nofail_solidify_iff, hrouted, hintra]
    have hlocal : ConnectionType.connLocal ≠ .connTerminal := by decide
    exact not_congr (loneHop_iff h hfailed hconns fun j =>
      get_router h hA hB hlocal hman.intraGID j)

theorem failedOfRail_router {B : List Connection}
    (hA : SamePorts (fromSrc m.routerConns i) A) (hB : SamePorts (fromSrc m.terminalConns i) B)
    (hman : Holds (A ++ B) man) (t rail : ℤ) :
    failedOfRail (get man.terminalConnections t) rail =
      failedOfRail (deref m.terminalConns (m.routerToTerminalConnectionMap (i, t))) rail :=
  (get_terminal h hA hB hman.terminal t).countP fun _ => rfl

theorem failedOfRail_terminal {t : ℤ}
    (hman : Injects (fromSrc m.injectionConns t) man) (i rail : ℤ) :
    failedOfRail (get man.injectionConnections i) rail =
      failedOfRail (deref m.injectionConns (m.terminalToRouterConnectionMap (t, i))) rail := by
  rw [hman.injection.get, deref, h.terminalRouter.deref, fromSrc, List.filter_filter]
  congr 1
  refine List.filter_congr fun conn _ => ?_
  rw [← Bool.decide_and]
  refine decide_eq_decide.2 ?_
  rw [Connection.ends, Prod.mk.injEq, Option.some.injEq]
  exact and_comm

end

theorem Injects.nofail (h : Injects A man) : man.solidifyConnections.Nofail := by
  rw [nofail_solidify_iff, h.routed]
  rintro ⟨g, conn, hconn, -⟩
  simp at hconn

theorem failedOfRail_eq_iff (h : Linked links m) (hfailed : Failed failures m) (i t rail : ℤ) :
    failedOfRail (deref m.terminalConns (m.routerToTerminalConnectionMap (i, t))) rail =
      failedOfRail (deref m.injectionConns (m.terminalToRouterConnectionMap (t, i))) rail ↔
    ¬ 1 < ((linksToTerminal links i t).take (failuresToTerminal failures i t)).countP
      fun l => l.railId = rail := by
  obtain ⟨hto, hback⟩ := failedOfRail_eq h hfailed i t rail
  rw [hto, hback]
  split_ifs with hpos <;> omega

/-- **When the managers represent the network**: neither is one of several links the only one that
works, nor do two links of one rail fail.  More failures than links are rejected. -/
theorem represents_iff (p : NetworkParam) (enabled : Bool) (links : List Link)
    (failures : List LinkInfo)
    (hports : ∀ t : ℕ, t < p.totalTerminals →
      links.countP (fun l => l.connType = .connTerminal ∧ l.destGid = (t : ℤ)) ≤ p.numRails) :
    (∀ net, solidify p enabled links failures = some net →
      (Represents p links failures net ↔
        ¬ LoneLink p links failures ∧ ¬ SameRailTwice p links failures)) ∧
    ∀ i j, (linksBetween links i j).length < failuresBetween failures i j →
      solidify p enabled links failures = none := by
  refine ⟨fun net hnet => ?_, fun i j hexcess => ?_⟩
  · obtain ⟨m, h, hfailed, hadd⟩ := solidify_eq_some hnet
    obtain ⟨conns, hconns, hrouters, hterminals⟩ := addConnsToConnectionManagers_spec h
      (fun t ht => length_injections h t ▸ hports t ht) hadd
    have hrouter := fun i hi => router_represents h hfailed hconns (hrouters i hi)
    have hrail : ∀ i t : ℕ, i < p.totalRouters → t < p.totalTerminals → ∀ rail,
        failedOfRail (get (net.routers i).terminalConnections t) rail =
          failedOfRail (get (net.terminals t).injectionConnections i) rail ↔
        ¬ 1 < ((linksToTerminal links i t).take (failuresToTerminal failures i t)).countP
          fun l => l.railId = rail := by
      intro i t hi ht rail
      obtain ⟨man, A, B, hman, hA, hB, -, -, -, heq⟩ := hrouters i hi
      obtain ⟨tman, htman, heq'⟩ := hterminals t ht
      have hholds : Holds (A ++ B) (net.routers i).toConnectionManager := heq ▸ hman.told _ _
      have hinjects : Injects (fromSrc m.injectionConns t) (net.terminals t).toConnectionManager :=
        heq' ▸ htman
      rw [failedOfRail_router h hA hB hholds, failedOfRail_terminal h hinjects]
      exact failedOfRail_eq_iff h hfailed i t rail
    constructor
    · intro hrep
      refine ⟨?_, ?_⟩
      · rintro ⟨i, hi, hlone⟩
        exact (hrouter i hi).2.2.2.1 (hrep.nofail.1 i hi) hlone
      · rintro ⟨i, t, hi, ht, rail, htwice⟩
        exact (hrail i t hi ht rail).1 (hrep.injection i t hi ht rail) htwice
    · rintro ⟨hlone, htwice⟩
      refine ⟨fun i hi => (hrouter i hi).1, ⟨fun i hi => ?_, fun t ht => ?_⟩,
        fun i hi => (hrouter i hi).2.2.1, fun i hi => (hrouter i hi).2.1, fun i t hi ht rail => ?_⟩
      · exact (hrouter i hi).2.2.2.2 fun hl => hlone ⟨i, hi, hl⟩
      · obtain ⟨man, hman, heq⟩ := hterminals t ht
        exact heq ▸ hman.nofail
      · exact (hrail i t hi ht rail).2 fun ht' => htwice ⟨i, t, hi, ht, rail, ht'⟩
  · by_contra hsome
    obtain ⟨net, hnet⟩ := Option.ne_none_iff_exists'.1 hsome
    obtain ⟨m, h, hfailed, -⟩ := solidify_eq_some hnet
    have hle := (hfailed.routers i j).le
    have hlen := congrArg List.length (h.between i j)
    rw [List.length_map, List.length_map] at hlen
    omega

end Main

/-! ### Two groups of two routers -/

/-- Two groups of two routers with two terminals. -/
def twoGroups : NetworkParam := ⟨4, 2, 2, 3, 1, 1, 1, 1, by decide⟩

def localLink (i j : ℤ) : Link := ⟨⟨i, j, 0, .connLocal⟩, nofun⟩

def globalLink (i j : ℤ) : Link := ⟨⟨i, j, 0, .connGlobal⟩, nofun⟩

def terminalLink (i t : ℤ) : Link := ⟨⟨i, t, 0, .connTerminal⟩, nofun⟩

/-- The routers 0 and 1 are joined by several links, and router 1 is joined to the other group. -/
def parallelLinks (n : ℕ) : List Link :=
  List.replicate n (localLink 0 1) ++ List.replicate n (localLink 1 0) ++
    [globalLink 1 2, globalLink 2 1, terminalLink 0 0, terminalLink 2 1]

/-- One of the links from router 0 to router 1 has failed. -/
def oneFailure : List LinkInfo := [(localLink 0 1).toLinkInfo]

/-- With three links of which one fails the managers represent the network. -/
theorem represents_threeLinks : ∃ net, solidify twoGroups true (parallelLinks 3) oneFailure =
    some net ∧ Represents twoGroups (parallelLinks 3) oneFailure net := by
  have hsome : (solidify twoGroups true (parallelLinks 3) oneFailure).isSome = true := by
    decide +kernel
  obtain ⟨net, hnet⟩ := Option.isSome_iff_exists.1 hsome
  have hlone : ¬ LoneLink twoGroups (parallelLinks 3) oneFailure := by
    rintro ⟨i, hi, l, hl, -, -, -, hmany, hone⟩
    have hnone : ∀ i < 4, ∀ l ∈ parallelLinks 3,
        ¬ (localLinks (workingBetween (parallelLinks 3) oneFailure (i : ℕ) l.srcGid)).length =
        1 := by
      decide +kernel
    exact hnone i hi l hl hone
  have htwice : ¬ SameRailTwice twoGroups (parallelLinks 3) oneFailure := by
    rintro ⟨i, t, -, -, rail, hrail⟩
    have hzero : failuresToTerminal oneFailure i t = 0 := rfl
    rw [hzero, List.take_zero] at hrail
    cases hrail
  exact ⟨net, hnet, ((represents_iff twoGroups true (parallelLinks 3) oneFailure
    (by decide +kernel)).1 net hnet).2 ⟨hlone, htwice⟩⟩

/-- With two links of which one fails, the maps of the next hops differ by more than the failed
one. -/
theorem twoLinks_not_represented : ∃ net,
    (∀ t : ℕ, t < twoGroups.totalTerminals →
      (parallelLinks 2).countP (fun l => l.connType = .connTerminal ∧ l.destGid = (t : ℤ)) ≤
        twoGroups.numRails) ∧
    solidify twoGroups true (parallelLinks 2) oneFailure = some net ∧
    ¬ Represents twoGroups (parallelLinks 2) oneFailure net := by
  have hsome : (solidify twoGroups true (parallelLinks 2) oneFailure).map (fun net =>
      (((get (net.routers 0).nextHopRoutedConnectionsToGroupMap 1).filter (!·.isFailed)).length,
        (get (net.routers 0).nextHopRoutedConnectionsToGroupMapNofail 1).length)) = some
        (1, 0) := by
    decide +kernel
  obtain ⟨net, hnet, hlen⟩ := Option.map_eq_some_iff.1 hsome
  refine ⟨net, by decide +kernel, hnet, fun hrep => ?_⟩
  obtain ⟨hfull, hnofail⟩ := Prod.mk.inj hlen
  have hhops := congrArg List.length ((hrep.nofail.1 0 (by decide)).nextHop.get 1)
  rw [hfull, hnofail] at hhops
  cases hhops

end CodesSim.NetMan
