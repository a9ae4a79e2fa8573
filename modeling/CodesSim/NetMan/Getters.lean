import CodesSim.NetMan.PortTypes

/-!
# Looking up connections

The functions by which the routing asks a connection manager for connections; those that have failed
are left out.  A router has the working global links of the network that start at it
(`mem_globalGroups_iff`).
-/

namespace CodesSim.NetMan

open Groups

namespace SolidManager

variable (m : SolidManager)

/-- `get_connections_to_gid`. -/
def getConnectionsToGid (destGid : ℤ) : ConnectionType → List Connection
  | .connLocal => get m.intraGroupConnectionsGIDNofail destGid
  | .connGlobal => get m.globalConnectionsNofail destGid
  | .connTerminal => get m.terminalConnectionsNofail destGid
  | .connInjection => get m.injectionConnectionsNofail destGid

/-- `get_connections_to_group`. -/
def getConnectionsToGroup (destGroupId : ℤ) : List Connection :=
  get m.connectionsToGroupsMapNofail destGroupId

/-- `get_connections_by_type`. -/
def getConnectionsByType (type : ConnectionType) : List Connection :=
  get m.allConnsByTypeMapNofail type.toInt

/-- `get_routed_connections_to_group`, with the next hops. -/
def getRoutedConnectionsToGroup (groupId : ℤ) : List Connection :=
  (get m.routedConnectionsToGroupMapNofail groupId).flatMap fun conn =>
    m.getConnectionsToGid conn.srcGid .connLocal

end SolidManager

theorem getConnectionsByType_global (m : ConnectionManager) :
    m.solidifyConnections.getConnectionsByType .connGlobal =
      (elems m.globalConnections).filter (!·.isFailed) := by
  refine ((filtered_withoutFailed _).get _).trans ?_
  simp only [List.foldl_cons, List.foldl_nil, Groups.get, getElem?_insert, ConnectionType.toInt]
  rfl

variable {p : NetworkParam} {links : List Link} {failures : List LinkInfo}

/-- **The working global connections of a router** are the working global links that start at it. -/
theorem exists_global_iff {enabled : Bool} {net : Network}
    (hnet : solidify p enabled links failures = some net) {i : ℕ}
    (hi : i < p.totalRouters) (g : ℤ) :
    (∃ conn ∈ elems (net.routers i).globalConnections, conn.isFailed = false ∧
      conn.destGroupId = g) ↔
      ∃ j, ∃ l ∈ workingBetween links failures i j, l.connType = .connGlobal ∧
        p.groupId l.destGid = g := by
  obtain ⟨m, conns, A, B, h, hfailed, -, hA, hB, hholds, -, -⟩ := solidify_router hnet hi
  have hget := fun j =>
    get_router h hA hB (show ConnectionType.connGlobal ≠ .connTerminal from nofun) hholds.global j
  have hlinks : ∀ j, (∃ conn ∈ deref m.routerConns (m.routerToRouterConnectionMap (i, j)),
      conn.connType = .connGlobal ∧ conn.isFailed = false ∧ conn.destGroupId = g) ↔
      ∃ l ∈ workingBetween links failures i j, l.connType = .connGlobal ∧
      p.groupId l.destGid = g := by
    intro j
    have hmap := congrArg (fun L => ∃ conn ∈ L, conn.connType = .connGlobal ∧ conn.destGroupId = g)
      (h.working hfailed i j)
    simp only [List.mem_map, List.mem_filter, Bool.not_eq_true', exists_exists_and_eq_and] at hmap
    refine Iff.trans ?_ (iff_of_eq hmap)
    exact exists_congr fun conn => by
      rw [Connection.healthy]
      tauto
  simp only [← hlinks]
  constructor
  · rintro ⟨conn, hconn, hP⟩
    obtain ⟨j, hj⟩ := mem_elems.1 hconn
    have hex := (hget j).symm.exists (P := fun conn => conn.isFailed = false ∧ conn.destGroupId = g)
      (fun _ => Iff.rfl) ⟨conn, hj, hP⟩
    obtain ⟨conn', hconn', hP'⟩ := hex
    exact ⟨j, conn', (List.mem_filter.1 hconn').1, by simpa using (List.mem_filter.1 hconn').2, hP'⟩
  · rintro ⟨j, conn, hconn, hty, hP⟩
    have hex := (hget j).exists (P := fun conn => conn.isFailed = false ∧ conn.destGroupId = g)
      (fun _ => Iff.rfl) ⟨conn, List.mem_filter.2 ⟨hconn, by simpa using hty⟩, hP⟩
    obtain ⟨conn', hconn', hP'⟩ := hex
    exact ⟨conn', mem_elems.2 ⟨j, hconn'⟩, hP'⟩

/-- **The groups a router has working global connections to.** -/
theorem mem_globalGroups_iff {enabled : Bool} {net : Network}
    (hnet : solidify p enabled links failures = some net) {i : ℕ}
    (hi : i < p.totalRouters) (g : ℤ) :
    (∃ conn ∈ (net.routers i).getConnectionsByType .connGlobal, conn.destGroupId = g) ↔
      ∃ j, ∃ l ∈ workingBetween links failures i j, l.connType = .connGlobal ∧
        p.groupId l.destGid = g := by
  obtain ⟨-, -, -, -, -, -, -, -, -, -, -, hsolid⟩ := solidify_router hnet hi
  rw [← exists_global_iff hnet hi, hsolid, getConnectionsByType_global]
  simp only [List.mem_filter, Bool.not_eq_true', and_assoc]
  rfl

end CodesSim.NetMan
