import CodesSim.Lib.Walks
import CodesSim.NetMan.Representation

/-!
# Valid paths

The smart routing asks the network manager which connections of a router start a path to another one
with so many global hops and so many local hops in each group (`get_valid_next_hops_conns`).  The
answers are kept in a table, and with link failures `solidify_network` fills it beforehand.

* A set of connections is ordered by the ports, so it has at most one connection of a port
  (`ConnSet`).
* The set for the destination itself has a connection that is never set: it is a parameter.
-/

namespace CodesSim.NetMan

/-! ### Sets of connections -/

/-- `set<Connection>`: the connections by their ports. -/
structure ConnSet where
  byPort : Std.ExtTreeMap ℤ Connection
  port_eq : ∀ port (conn : Connection), byPort[port]? = some conn → conn.port = port

namespace ConnSet

instance : Membership Connection ConnSet := ⟨fun valid conn => valid.byPort[conn.port]? = some conn⟩

variable {valid new : ConnSet} {conn conn' : Connection}

theorem mem_def : conn ∈ valid ↔ valid.byPort[conn.port]? = some conn := Iff.rfl

@[ext] theorem ext (h : ∀ conn, conn ∈ valid ↔ conn ∈ new) : valid = new := by
  have hmap : valid.byPort = new.byPort := by
    refine Std.ExtTreeMap.ext_getElem? fun port => Option.ext fun conn => ?_
    constructor
    · intro hport
      obtain rfl := valid.port_eq port conn hport
      exact (h conn).1 hport
    · intro hport
      obtain rfl := new.port_eq port conn hport
      exact (h conn).2 hport
  cases valid
  cases new
  simpa using hmap

def empty : ConnSet := ⟨∅, by simp⟩

theorem not_mem_empty : conn ∉ empty := by simp [mem_def, empty]

/-- `insert` of a range: what is there stays. -/
def insertAll (valid new : ConnSet) : ConnSet where
  byPort := new.byPort ∪ valid.byPort
  port_eq port conn h := by
    rw [Std.ExtTreeMap.getElem?_union, Option.or_eq_some_iff] at h
    obtain h | ⟨-, h⟩ := h
    · exact valid.port_eq port conn h
    · exact new.port_eq port conn h

def singleton (conn : Connection) : ConnSet where
  byPort := (∅ : Std.ExtTreeMap ℤ Connection).insert conn.port conn
  port_eq port conn' h := by
    rw [Groups.getElem?_insert] at h
    split_ifs at h with hport
    · cases h
      exact hport
    · simp at h

theorem mem_singleton : conn' ∈ singleton conn ↔ conn' = conn := by
  rw [mem_def, singleton, Groups.getElem?_insert]
  split_ifs with hport
  · rw [Option.some.injEq, eq_comm]
  · refine iff_of_false (by simp) ?_
    rintro rfl
    exact hport rfl

/-- `insert`. -/
def insert (valid : ConnSet) (conn : Connection) : ConnSet := valid.insertAll (singleton conn)

/-- `size() > 0`. -/
def isNonempty (valid : ConnSet) : Bool := 0 < valid.byPort.size

theorem isNonempty_iff : valid.isNonempty = true ↔ ∃ conn, conn ∈ valid := by
  rw [isNonempty, decide_eq_true_eq, Nat.pos_iff_ne_zero, ne_eq,
    ← Std.ExtTreeMap.eq_empty_iff_size_eq_zero]
  constructor
  · intro hne
    by_contra hno
    have hempty : valid = empty := ext fun conn =>
      iff_of_false (fun hconn => hno ⟨conn, hconn⟩) not_mem_empty
    exact hne (congrArg byPort hempty)
  · rintro ⟨conn, hconn⟩ hempty
    rw [mem_def, hempty] at hconn
    simp at hconn

end ConnSet

/-! ### The network manager with its table -/

/-- What the network manager is made with, for paths. -/
structure PathParam extends NetworkParam where
  (maxLocalHopsPerGroup maxGlobalHops : ℕ)
  /-- The numbers of routers are divided by it. -/
  planes_pos : 0 < totalRouters / totalPlanes

def PathParam.routersPerPlane (p : PathParam) : ℕ := p.totalRouters / p.totalPlanes

/-- The plane of a router. -/
def PathParam.planeOf (p : PathParam) (gid : ℤ) : ℤ := gid.tdiv p.routersPerPlane

/-- The arguments of `get_valid_next_hops_conns`. -/
structure Query where
  (srcGid destGid maxLocal exactGlobal : ℤ)
  deriving DecidableEq

/-- `_valid_next_conn_map`. -/
abbrev ValidNextConnMap : Type := Query → Option ConnSet

/-- The network manager with what it needs for paths. -/
structure PathManager (p : PathParam) extends NetworkManager p.toNetworkParam where
  /-- `_router_to_router_local_conn_map` and `_router_to_router_global_conn_map`. -/
  routerToRouterConnMap : ConnectionType × ℤ → List ℕ
  validNextConnMap : ValidNextConnMap

variable {p : PathParam}

variable (p) in
/-- A network manager without links. -/
def PathManager.new (linkFailuresEnabled : Bool) : PathManager p where
  toNetworkManager := .new _ linkFailuresEnabled
  routerToRouterConnMap := fun _ => []
  validNextConnMap := fun _ => none

/-- `add_link`. -/
def PathManager.addLink (m : PathManager p) (link : Link) : PathManager p where
  toNetworkManager := m.toNetworkManager.addLink link
  routerToRouterConnMap :=
    if link.connType ≠ .connTerminal then
      pushPtr m.routerToRouterConnMap (link.connType, link.srcGid) m.routerConns.length
    else m.routerToRouterConnMap
  validNextConnMap := m.validNextConnMap

/-- The connections of a router to routers, of a type. -/
def PathManager.connsFrom (m : PathManager p) (ty : ConnectionType) (srcGid : ℤ) :
    List Connection :=
  deref m.routerConns (m.routerToRouterConnMap (ty, srcGid))

/-- `_valid_next_conn_map[q].insert(…)`. -/
def insertValid (memo : ValidNextConnMap) (q : Query) (valid : ConnSet) : ValidNextConnMap :=
  Function.update memo q (some (((memo q).getD .empty).insertAll valid))

/-- The loop over connections of a router: those are inserted that work and lead on. -/
def insertLeading (search : Connection → ValidNextConnMap → ConnSet × ValidNextConnMap) :
    List Connection → ConnSet × ValidNextConnMap → ConnSet × ValidNextConnMap
  | [], r => r
  | conn :: conns, (valid, memo) =>
    if conn.isFailed then insertLeading search conns (valid, memo)
    else
      let r := search conn memo
      insertLeading search conns (if r.1.isNonempty then valid.insert conn else valid, r.2)

section Search

variable (destConn : Connection)

/-- `get_valid_next_hops_conns`, with the table. -/
def PathManager.getValidNextHopsConns (m : PathManager p) (srcGid destGid maxLocal exactGlobal : ℤ)
    (memo : ValidNextConnMap) : ConnSet × ValidNextConnMap :=
  if p.planeOf srcGid ≠ p.planeOf destGid then (.empty, memo)
  else if srcGid = destGid ∧ exactGlobal = 0 then (.singleton destConn, memo)
  else if 0 ≤ maxLocal ∧ 0 ≤ exactGlobal then
    match memo ⟨srcGid, destGid, maxLocal, exactGlobal⟩ with
    | some valid => (valid, memo)
    | none =>
      let r :=
        if hlocal : 0 < maxLocal then
          insertLeading (fun conn => m.getValidNextHopsConns conn.destGid destGid (maxLocal - 1)
            exactGlobal) (m.connsFrom .connLocal srcGid) (.empty, memo)
        else (.empty, memo)
      let r :=
        if hglobal : 0 < exactGlobal then
          insertLeading (fun conn => m.getValidNextHopsConns conn.destGid destGid
            p.maxLocalHopsPerGroup (exactGlobal - 1)) (m.connsFrom .connGlobal srcGid) r
        else r
      (r.1, insertValid r.2 ⟨srcGid, destGid, maxLocal, exactGlobal⟩ r.1)
  else (.empty, memo)
termination_by (exactGlobal.toNat, maxLocal.toNat)
decreasing_by
  · exact Prod.Lex.right _ (by omega)
  · exact Prod.Lex.left _ _ (by omega)

/-- A call of `get_valid_next_hops_conns`. -/
def PathManager.ask (m : PathManager p) (q : Query) : ConnSet × PathManager p :=
  let r := m.getValidNextHopsConns destConn q.srcGid q.destGid q.maxLocal q.exactGlobal
    m.validNextConnMap
  (r.1, { m with validNextConnMap := r.2 })

/-- A round of the loop that fills the table. -/
def PathManager.precalculate (m : PathManager p) (q : Query) : PathManager p :=
  let r := m.ask destConn q
  { r.2 with validNextConnMap := insertValid r.2.validNextConnMap q r.1 }

variable (p) in
/-- What the table is filled with. -/
def precalculated : List Query :=
  (List.range p.totalPlanes).flatMap fun plane : ℕ =>
    (List.range p.routersPerPlane).flatMap fun i : ℕ =>
      (List.range p.routersPerPlane).flatMap fun j : ℕ =>
        (List.range (p.maxLocalHopsPerGroup + 1)).map fun localHops : ℕ =>
          ⟨i + plane * p.routersPerPlane, j + plane * p.routersPerPlane, localHops, p.maxGlobalHops⟩

/-- `solidify_network`. -/
def PathManager.solidifyNetwork (m : PathManager p) : Option (PathManager p × Network) :=
  (guard m.inMatrices : Option Unit).bind fun _ =>
  ((Groups.elems m.routerLinkFailureLists).foldlM NetworkManager.failConnection
    m.toNetworkManager).bind fun nm =>
  ((Groups.elems nm.routerTerminalLinkFailureLists).foldlM NetworkManager.failConnection nm).bind
    fun nm =>
  -- the connections themselves get their ports
  (addConnsToAll nm.routerConnectionsMap (List.range p.totalRouters) (newRouters p.toNetworkParam)
    nm.routerConns).bind fun r =>
  nm.addConnsToConnectionManagers.map fun net =>
  let m := { m with toNetworkManager := nm.setRouterConns r.2 }
  (if m.linkFailuresEnabled then (precalculated p).foldl (·.precalculate destConn ·) m else m, net)

/-- Links, failures, `solidify_network`. -/
def solidifyPaths (p : PathParam) (linkFailuresEnabled : Bool) (links : List Link)
    (failures : List LinkInfo) : Option (PathManager p × Network) :=
  let m := links.foldl PathManager.addLink (.new p linkFailuresEnabled)
  (failures.foldlM NetworkManager.addLinkFailureInfo m.toNetworkManager).bind fun nm =>
    PathManager.solidifyNetwork destConn { m with toNetworkManager := nm }

end Search

end CodesSim.NetMan
