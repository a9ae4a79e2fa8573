import CodesSim.Lib.Groups
import Mathlib.Data.Int.Notation

/-!
# The network manager of the dragonfly networks

The network manager (`dragonfly-network-manager.cxx`) is told the links of the network and the links
that have failed.  `solidify_network` applies the failures, gives each router and each terminal a
connection manager with copies of its connections, and these derive the maps that the routing reads,
most of them twice: with all connections and without the failed ones (`nofail`).

* A pointer to a connection is its place in a list: there is one list each for the links between
  routers, for those to terminals and for the injection links of the terminals.
* `none` is an error (`tw_error`).
* The number and the bandwidth of a link, the table for shortest paths and the adjacency matrices
  are left out, since nothing modelled reads them; the table for valid paths is in `Paths`.  So are
  the counters of failed ports, which stay zero, and the flag that a manager is solidified: that is
  its type (`SolidManager`).
-/

namespace CodesSim.NetMan

open Groups

/-- `map<pair<int, int>, …>` is ordered by the first component. -/
instance instOrdPair : Ord (ℤ × ℤ) := lexOrd

/-- `ConnectionType`. -/
inductive ConnectionType where
  | connLocal
  | connGlobal
  | connTerminal
  | connInjection
  deriving DecidableEq

/-- The number of a type. -/
def ConnectionType.toInt : ConnectionType → ℤ
  | .connLocal => 1
  | .connGlobal => 2
  | .connTerminal => 3
  | .connInjection => 4

inductive ManagerType where
  | manRouter
  | manTerminal
  deriving DecidableEq

/-- `Link_Info`. -/
structure LinkInfo where
  (srcGid destGid railId : ℤ)
  connType : ConnectionType

/-- A link that is added: injection links come with the links to terminals. -/
structure Link extends LinkInfo where
  notInjection : connType ≠ .connInjection

structure Connection where
  (port srcLid srcGid srcGroupId destLid destGid destGroupId : ℤ)
  isFailed : Bool
  railOrPlanarId : ℤ
  connType : ConnectionType
  deriving DecidableEq

def Connection.setPort (conn : Connection) (port : ℤ) : Connection := { conn with port := port }

def Connection.setDestGroupId (conn : Connection) (id : ℤ) : Connection :=
  { conn with destGroupId := id }

def Connection.fail (conn : Connection) : Connection := { conn with isFailed := true }

/-- What the network manager is made with; it refuses groups of which the last one is not full. -/
structure NetworkParam where
  (totalRouters totalTerminals numRoutersPerGroup : ℕ)
  /-- The local, global and terminal ports of a router. -/
  (numLcPr numGcPr numCnPr : ℕ)
  (numRails totalPlanes : ℕ)
  uniform : numRoutersPerGroup ∣ totalRouters

def NetworkParam.totalGroups (p : NetworkParam) : ℕ := p.totalRouters / p.numRoutersPerGroup

/-- The group of a router. -/
def NetworkParam.groupId (p : NetworkParam) (gid : ℤ) : ℤ := gid.tdiv p.numRoutersPerGroup

/-- The number of a router in its group. -/
def NetworkParam.localId (p : NetworkParam) (gid : ℤ) : ℤ := gid.tmod p.numRoutersPerGroup

/-! ### Connection managers -/

/-- A connection manager to which connections are added. -/
structure ConnectionManager where
  manType : ManagerType
  sourceGroup : ℤ
  (maxIntraPorts maxInterPorts maxTerminalPorts maxInjectionPorts usedIntraPorts usedInterPorts : ℕ)
  (usedTerminalPorts usedInjectionPorts : ℕ)
  portMap : Std.ExtTreeMap ℤ Connection
  /-- By the number in the group. -/
  intraGroupConnections : Std.ExtTreeMap ℤ (List Connection)
  (intraGroupConnectionsGID globalConnections : Std.ExtTreeMap ℤ (List Connection))
  (terminalConnections injectionConnections : Std.ExtTreeMap ℤ (List Connection))
  /-- The global connections of the own group, by the group they lead to. -/
  routedConnectionsToGroupMap : Std.ExtTreeMap ℤ (List Connection)
  groupGroupConnectionMap : Std.ExtTreeMap ℤ (List ℤ)
  groupGroupConnectionMapNofail : Std.ExtTreeMap ℤ (List ℤ)

/-- A manager without connections. -/
def ConnectionManager.new (manType : ManagerType) (sourceGroup : ℤ)
    (maxIntra maxInter maxTerm maxInjection : ℕ) : ConnectionManager :=
  ⟨manType, sourceGroup, maxIntra, maxInter, maxTerm, maxInjection, 0, 0, 0, 0, ∅, ∅, ∅, ∅, ∅, ∅, ∅,
    ∅, ∅⟩

def ConnectionManager.addLocal (m : ConnectionManager) (conn : Connection) : ConnectionManager :=
  { m with
    intraGroupConnections := push m.intraGroupConnections conn.destLid conn
    intraGroupConnectionsGID := push m.intraGroupConnectionsGID conn.destGid conn
    usedIntraPorts := m.usedIntraPorts + 1 }

def ConnectionManager.addGlobal (m : ConnectionManager) (conn : Connection) : ConnectionManager :=
  { m with
    globalConnections := push m.globalConnections conn.destGid conn
    usedInterPorts := m.usedInterPorts + 1 }

def ConnectionManager.addTerminal (m : ConnectionManager) (conn : Connection) : ConnectionManager :=
  { m with
    terminalConnections := push m.terminalConnections conn.destGid conn
    usedTerminalPorts := m.usedTerminalPorts + 1 }

def ConnectionManager.addInjection (m : ConnectionManager) (conn : Connection) :
    ConnectionManager :=
  { m with
    injectionConnections := push m.injectionConnections conn.destGid conn
    usedInjectionPorts := m.usedInjectionPorts + 1 }

/-- The part of `add_connection` for a type of connection: the connection gets its port. -/
def ConnectionManager.place (m : ConnectionManager) (conn : Connection) :
    Option (ConnectionManager × Connection) :=
  match conn.connType with
  | .connLocal =>
    if m.manType = .manTerminal then none
    else if m.usedIntraPorts < m.maxIntraPorts then
      let conn := conn.setPort m.usedIntraPorts
      some (m.addLocal conn, conn)
    else none
  | .connGlobal =>
    if m.manType = .manTerminal then none
    else if m.usedInterPorts < m.maxInterPorts then
      let conn := conn.setPort (m.maxIntraPorts + m.usedInterPorts)
      some (m.addGlobal conn, conn)
    else none
  | .connTerminal =>
    if m.manType = .manTerminal then none
    else if m.usedTerminalPorts < m.maxTerminalPorts then
      let conn := (conn.setPort
        (m.maxIntraPorts + m.maxInterPorts + m.usedTerminalPorts)).setDestGroupId m.sourceGroup
      some (m.addTerminal conn, conn)
    else none
  | .connInjection =>
    if m.usedInjectionPorts < m.maxInjectionPorts then some (m.addInjection conn, conn)
    else some (m, conn)

/-- A connection is entered in the port map. -/
def ConnectionManager.register (m : ConnectionManager) (conn : Connection) : ConnectionManager :=
  { m with portMap := m.portMap.insert conn.port conn }

/-- `add_connection`, with the port of the connection. -/
def ConnectionManager.addConnection (m : ConnectionManager) (conn : Connection) :
    Option (ConnectionManager × ℤ) :=
  (m.place conn).map fun r => (r.1.register r.2, r.2.port)

/-- `set_routed_connections_to_groups`. -/
def ConnectionManager.setRoutedConnectionsToGroups (m : ConnectionManager)
    (connMap : Std.ExtTreeMap ℤ (List Connection)) : ConnectionManager :=
  { m with routedConnectionsToGroupMap := connMap }

/-- One round of `add_group_group_connection_information`. -/
def ConnectionManager.addGroupGroup (m : ConnectionManager)
    (e : (ℤ × ℤ) × List Connection) : ConnectionManager :=
  let m := if 0 < e.2.length then
      { m with groupGroupConnectionMap :=
          addAsIfSet (addAsIfSet m.groupGroupConnectionMap e.1.1 e.1.2) e.1.2 e.1.1 }
    else m
  if e.2.any fun conn => !conn.isFailed then
    { m with groupGroupConnectionMapNofail :=
        addAsIfSet (addAsIfSet m.groupGroupConnectionMapNofail e.1.1 e.1.2) e.1.2 e.1.1 }
  else m

/-- `add_group_group_connection_information`, for the entries of the map. -/
def ConnectionManager.addGroupGroupConnectionInformation (m : ConnectionManager)
    (conns : List ((ℤ × ℤ) × List Connection)) : ConnectionManager :=
  conns.foldl ConnectionManager.addGroupGroup m

/-- A solidified manager has the maps that are derived from those it was given. -/
structure SolidManager extends ConnectionManager where
  connectionsToGroupsMap : Std.ExtTreeMap ℤ (List Connection)
  otherGroupsIConnectTo : List ℤ
  (allConnsByTypeMap intraGroupConnectionsNofail : Std.ExtTreeMap ℤ (List Connection))
  (intraGroupConnectionsGIDNofail globalConnectionsNofail : Std.ExtTreeMap ℤ (List Connection))
  (terminalConnectionsNofail injectionConnectionsNofail : Std.ExtTreeMap ℤ (List Connection))
  (connectionsToGroupsMapNofail : Std.ExtTreeMap ℤ (List Connection))
  otherGroupsIConnectToNofail : List ℤ
  (allConnsByTypeMapNofail nextHopRoutedConnectionsToGroupMap : Std.ExtTreeMap ℤ (List Connection))
  (nextHopRoutedConnectionsToGroupMapNofail : Std.ExtTreeMap ℤ (List Connection))
  (routedConnectionsToGroupMapNofail : Std.ExtTreeMap ℤ (List Connection))
  routedRouterGidsToGroupMap : Std.ExtTreeMap ℤ (List ℤ)
  routedRouterGidsToGroupMapNofail : Std.ExtTreeMap ℤ (List ℤ)
  accessibleGroupIdsNofail : List ℤ

/-- The loop that copies a map without the failed connections. -/
def withoutFailed (m : Std.ExtTreeMap ℤ (List Connection)) : Std.ExtTreeMap ℤ (List Connection) :=
  collect (fun conn => if conn.isFailed then [] else [conn]) m

/-- The keys of a map whose lists are not empty. -/
def groupsOf (m : Std.ExtTreeMap ℤ (List Connection)) : List ℤ :=
  (m.toList.filter fun e => 0 < e.2.length).map Prod.fst

/-- The loop over the routed connections that looks for connections to their routers: they count if
there is more than one. -/
def nextHops (routed intra : Std.ExtTreeMap ℤ (List Connection)) :
    Std.ExtTreeMap ℤ (List Connection) :=
  collect (fun conn => if 1 < (get intra conn.srcGid).length then get intra conn.srcGid else [])
    routed

/-- `solidify_connections`. -/
def ConnectionManager.solidifyConnections (m : ConnectionManager) : SolidManager :=
  let toGroups := regroup Connection.destGroupId m.globalConnections
  let byType := [(ConnectionType.connLocal, m.intraGroupConnections),
      (.connGlobal, m.globalConnections), (.connTerminal, m.terminalConnections),
      (.connInjection, m.injectionConnections)].foldl
    (fun acc e => acc.insert e.1.toInt (elems e.2)) (∅ : Std.ExtTreeMap ℤ (List Connection))
  let intraGID := withoutFailed m.intraGroupConnectionsGID
  let globalNofail := withoutFailed m.globalConnections
  let terminalNofail := withoutFailed m.terminalConnections
  let toGroupsNofail := withoutFailed toGroups
  let othersNofail := groupsOf toGroupsNofail
  let routedNofail := withoutFailed m.routedConnectionsToGroupMap
  -- `is_connected_to_by_type` looks at all types
  let connected (gid : ℤ) : Bool :=
    gid ∈ intraGID || gid ∈ globalNofail || gid ∈ terminalNofail
  let accessible := (routedNofail.toList.filter fun e => e.2.any fun conn =>
    connected conn.srcGid).map Prod.fst
  { m with
    connectionsToGroupsMap := toGroups
    otherGroupsIConnectTo := groupsOf toGroups
    allConnsByTypeMap := byType
    intraGroupConnectionsNofail := withoutFailed m.intraGroupConnections
    intraGroupConnectionsGIDNofail := intraGID
    globalConnectionsNofail := globalNofail
    terminalConnectionsNofail := terminalNofail
    injectionConnectionsNofail := withoutFailed m.injectionConnections
    connectionsToGroupsMapNofail := toGroupsNofail
    otherGroupsIConnectToNofail := othersNofail
    allConnsByTypeMapNofail := withoutFailed byType
    nextHopRoutedConnectionsToGroupMap :=
      nextHops m.routedConnectionsToGroupMap m.intraGroupConnectionsGID
    nextHopRoutedConnectionsToGroupMapNofail := nextHops m.routedConnectionsToGroupMap intraGID
    routedConnectionsToGroupMapNofail := routedNofail
    routedRouterGidsToGroupMap :=
      collectSet (fun conn => some conn.srcGid) m.routedConnectionsToGroupMap
    routedRouterGidsToGroupMapNofail :=
      collectSet (fun conn => if conn.isFailed then none else some conn.srcGid)
        m.routedConnectionsToGroupMap
    accessibleGroupIdsNofail := othersNofail.foldl (fun l g => if g ∈ l then l else l ++ [g])
      accessible }

/-- `get_connection_on_port`; a port without a connection gives nothing that can be relied on. -/
def SolidManager.getConnectionOnPort (m : SolidManager) (port : ℤ) (includeFailed : Bool) :
    Option Connection :=
  m.portMap[port]?.filter fun conn => !conn.isFailed || includeFailed

/-! ### The network manager -/

/-- The pointed-to connections. -/
def deref (conns : List Connection) (ptrs : List ℕ) : List Connection := ptrs.filterMap (conns[·]?)

/-- `m[k].push_back(ptr)` for an `unordered_map`. -/
def pushPtr {κ : Type} [DecidableEq κ] (m : κ → List ℕ) (k : κ) (ptr : ℕ) : κ → List ℕ :=
  Function.update m k (m k ++ [ptr])

/-- The network manager, before the network is solidified. -/
structure NetworkManager (p : NetworkParam) where
  /-- The connections between routers, to terminals and from terminals. -/
  routerConns : List Connection
  terminalConns : List Connection
  injectionConns : List Connection
  (routerConnectionsMap routerTerminalConnectionsMap terminalRouterConnectionsMap : ℤ → List ℕ)
  (routerToRouterConnectionMap routerToTerminalConnectionMap : ℤ × ℤ → List ℕ)
  (terminalToRouterConnectionMap : ℤ × ℤ → List ℕ)
  globalGroupConnectionMap : Std.ExtTreeMap (ℤ × ℤ) (List ℕ)
  linkFailuresEnabled : Bool
  routerLinkFailureLists : Std.ExtTreeMap ℤ (List LinkInfo)
  routerTerminalLinkFailureLists : Std.ExtTreeMap ℤ (List LinkInfo)

variable {p : NetworkParam}

/-- A network manager without links. -/
def NetworkManager.new (p : NetworkParam) (linkFailuresEnabled : Bool) : NetworkManager p :=
  ⟨[], [], [], fun _ => [], fun _ => [], fun _ => [], fun _ => [], fun _ => [], fun _ => [], ∅,
    linkFailuresEnabled, ∅, ∅⟩

variable (p) in
/-- The connection that `add_link` makes for a link between routers. -/
def routerConn (link : LinkInfo) : Connection where
  port := -1
  srcLid := p.localId link.srcGid
  srcGid := link.srcGid
  srcGroupId := p.groupId link.srcGid
  destLid := p.localId link.destGid
  destGid := link.destGid
  destGroupId := p.groupId link.destGid
  isFailed := false
  railOrPlanarId := link.railId
  connType := link.connType

variable (p) in
/-- The connection that `add_link` makes for a link to a terminal. -/
def terminalConn (link : LinkInfo) : Connection :=
  { routerConn p link with
    destGroupId := p.groupId link.srcGid
    destLid := link.destGid.tmod p.numCnPr }

variable (p) in
/-- The connection that `add_link` makes for the way back. -/
def injectionConn (link : LinkInfo) : Connection where
  port := link.railId
  srcLid := link.destGid.tmod p.numCnPr
  srcGid := link.destGid
  srcGroupId := -1
  destLid := p.localId link.srcGid
  destGid := link.srcGid
  destGroupId := p.groupId link.srcGid
  isFailed := false
  railOrPlanarId := link.railId
  connType := .connInjection

/-- `add_link`. -/
def NetworkManager.addLink (m : NetworkManager p) (link : Link) : NetworkManager p :=
  if link.connType ≠ .connTerminal then
    let conn := routerConn p link.toLinkInfo
    let ptr := m.routerConns.length
    { m with
      routerConns := m.routerConns ++ [conn]
      routerConnectionsMap := pushPtr m.routerConnectionsMap link.srcGid ptr
      routerToRouterConnectionMap :=
        pushPtr m.routerToRouterConnectionMap (conn.srcGid, conn.destGid) ptr
      globalGroupConnectionMap :=
        if conn.connType = .connGlobal then
          push m.globalGroupConnectionMap (conn.srcGroupId, conn.destGroupId) ptr
        else m.globalGroupConnectionMap }
  else
    let conn := terminalConn p link.toLinkInfo
    let termConn := injectionConn p link.toLinkInfo
    let ptr := m.terminalConns.length
    let termPtr := m.injectionConns.length
    { m with
      terminalConns := m.terminalConns ++ [conn]
      injectionConns := m.injectionConns ++ [termConn]
      routerTerminalConnectionsMap := pushPtr m.routerTerminalConnectionsMap link.srcGid ptr
      routerToTerminalConnectionMap :=
        pushPtr m.routerToTerminalConnectionMap (conn.srcGid, conn.destGid) ptr
      terminalRouterConnectionsMap := pushPtr m.terminalRouterConnectionsMap termConn.srcGid termPtr
      terminalToRouterConnectionMap :=
        pushPtr m.terminalToRouterConnectionMap (termConn.srcGid, termConn.destGid) termPtr }

/-- `add_link_failure_info`. -/
def NetworkManager.addLinkFailureInfo (m : NetworkManager p) (link : LinkInfo) :
    Option (NetworkManager p) :=
  if m.linkFailuresEnabled = false then none
  else if link.connType ≠ .connTerminal then
    some { m with routerLinkFailureLists := push m.routerLinkFailureLists link.srcGid link }
  else
    some { m with
      routerTerminalLinkFailureLists := push m.routerTerminalLinkFailureLists link.srcGid link }

/-- `get_failed_count_from_vector`. -/
def getFailedCountFromVector (conns : List Connection) : ℕ := conns.countP (·.isFailed)

/-- A connection fails. -/
def setFailed (conns : List Connection) (ptr : ℕ) : List Connection :=
  conns.modify ptr Connection.fail

/-- The first pointer to a connection with a property. -/
def firstPtr (conns : List Connection) (P : Connection → Bool) (ptrs : List ℕ) : Option ℕ :=
  ptrs.find? fun ptr => (conns[ptr]?.map P).getD false

/-- A connection fails if there is one. -/
def setFailed? (conns : List Connection) (ptr : Option ℕ) : List Connection :=
  match ptr with
  | some ptr => setFailed conns ptr
  | none => conns

def NetworkManager.setRouterConns (m : NetworkManager p) (conns : List Connection) :
    NetworkManager p :=
  { m with routerConns := conns }

def NetworkManager.setTerminalConns (m : NetworkManager p) (conns back : List Connection) :
    NetworkManager p :=
  { m with
    terminalConns := conns
    injectionConns := back }

/-- `fail_connection`. -/
def NetworkManager.failConnection (m : NetworkManager p) (link : LinkInfo) :
    Option (NetworkManager p) :=
  if m.linkFailuresEnabled = false then none
  else if link.connType ≠ .connTerminal then
    let ptrs := m.routerToRouterConnectionMap (link.srcGid, link.destGid)
    let conns := deref m.routerConns ptrs
    if getFailedCountFromVector conns = conns.length then none
    else some (m.setRouterConns
      (setFailed? m.routerConns (firstPtr m.routerConns (fun conn => !conn.isFailed) ptrs)))
  else
    let ptrs := m.routerToTerminalConnectionMap (link.srcGid, link.destGid)
    let conns := deref m.terminalConns ptrs
    if getFailedCountFromVector conns = conns.length then none
    else
      let failed := firstPtr m.terminalConns (fun conn => !conn.isFailed) ptrs
      let failedRail := ((failed.bind (m.terminalConns[·]?)).map Connection.railOrPlanarId).getD 0
      -- the injection link of the same rail fails too
      let back := firstPtr m.injectionConns (fun conn => conn.railOrPlanarId = failedRail)
        (m.terminalToRouterConnectionMap (link.destGid, link.srcGid))
      some (m.setTerminalConns (setFailed? m.terminalConns failed)
        (setFailed? m.injectionConns back))

/-- Add connections to a manager; each is told its port. -/
def addConns : ConnectionManager → List Connection → List ℕ →
    Option (ConnectionManager × List Connection)
  | man, conns, [] => some (man, conns)
  | man, conns, ptr :: ptrs =>
    match conns[ptr]? with
    | none => none
    | some conn => (man.addConnection conn).bind fun r =>
        addConns r.1 (conns.modify ptr (·.setPort r.2)) ptrs

/-- The loop over the managers that adds the connections of each. -/
def addConnsToAll (index : ℤ → List ℕ) : List ℕ → (ℕ → ConnectionManager) → List Connection →
    Option ((ℕ → ConnectionManager) × List Connection)
  | [], mans, conns => some (mans, conns)
  | i :: is, mans, conns => (addConns (mans i) conns (index i)).bind fun r =>
      addConnsToAll index is (Function.update mans i r.1) r.2

/-- The managers of a solidified network. -/
structure Network where
  routers : ℕ → SolidManager
  terminals : ℕ → SolidManager

variable (p) in
/-- The managers of the routers, without connections. -/
def newRouters (i : ℕ) : ConnectionManager :=
  .new .manRouter (p.groupId i) p.numLcPr p.numGcPr p.numCnPr 0

variable (p) in
/-- The managers of the terminals, without connections. -/
def newTerminals (_ : ℕ) : ConnectionManager := .new .manTerminal (-1) 0 0 0 p.numRails

/-- The connections between groups that a router is told: those from its own group, by the group
they lead to. -/
def NetworkManager.routedToGroups (m : NetworkManager p) (i : ℕ) :
    Std.ExtTreeMap ℤ (List Connection) :=
  (List.range p.totalGroups).foldl (fun acc (j : ℕ) => acc.insert (j : ℤ)
    (deref m.routerConns (get m.globalGroupConnectionMap (p.groupId i, (j : ℤ))))) ∅

/-- The connections between groups. -/
def NetworkManager.groupGroups (m : NetworkManager p) : List ((ℤ × ℤ) × List Connection) :=
  m.globalGroupConnectionMap.toList.map fun e => (e.1, deref m.routerConns e.2)

/-- `add_conns_to_connection_managers`, and `solidify_connections` for all managers. -/
def NetworkManager.addConnsToConnectionManagers (m : NetworkManager p) : Option Network :=
  (addConnsToAll m.routerConnectionsMap (List.range p.totalRouters) (newRouters p)
    m.routerConns).bind fun r =>
  (addConnsToAll m.routerTerminalConnectionsMap (List.range p.totalRouters) r.1
    m.terminalConns).bind fun r' =>
  -- an injection link has its port already, so nothing is written back
  (addConnsToAll m.terminalRouterConnectionsMap (List.range p.totalTerminals) (newTerminals p)
    m.injectionConns).map fun r'' =>
  let m := m.setRouterConns r.2
  { routers := fun i => (((r'.1 i).setRoutedConnectionsToGroups
      (m.routedToGroups i)).addGroupGroupConnectionInformation m.groupGroups).solidifyConnections
    terminals := fun i => (r''.1 i).solidifyConnections }

/-- What is written in the adjacency matrices is inside of them. -/
def NetworkManager.inMatrices (m : NetworkManager p) : Bool :=
  (List.range p.totalRouters).all fun i : ℕ =>
    (deref m.routerConns (m.routerConnectionsMap i)).all fun conn =>
      (0 ≤ conn.railOrPlanarId ∧ conn.railOrPlanarId < p.totalPlanes) ∧
        0 ≤ conn.destGid ∧ conn.destGid < p.totalRouters

/-- `solidify_network`; the matrices themselves are left out. -/
def NetworkManager.solidifyNetwork (m : NetworkManager p) : Option Network :=
  (guard m.inMatrices : Option Unit).bind fun _ =>
  ((elems m.routerLinkFailureLists).foldlM NetworkManager.failConnection m).bind fun m =>
  ((elems m.routerTerminalLinkFailureLists).foldlM NetworkManager.failConnection m).bind
    NetworkManager.addConnsToConnectionManagers

/-- What the networks do with the network manager: links, failures, `solidify_network`. -/
def solidify (p : NetworkParam) (linkFailuresEnabled : Bool) (links : List Link)
    (failures : List LinkInfo) : Option Network :=
  (failures.foldlM NetworkManager.addLinkFailureInfo
    (links.foldl NetworkManager.addLink (.new p linkFailuresEnabled))).bind
    NetworkManager.solidifyNetwork

end CodesSim.NetMan
