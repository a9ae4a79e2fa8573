import CodesSim.NetMan.Getters

/-!
# Next hops to a group

The routing asks a router for its local connections to the routers of its group that have a global
connection to some group.  `get_routed_connections_to_group` looks for them when it is asked, and
`get_next_hop_routed_connections_to_group` takes them from a table of `solidify_connections`.

* The table leaves out the connections to a router if there is only one, and the table without
  failed connections has those to routers whose global connections to the group have all failed.
* `nextHops_agree_iff` says for which links and failures the two give the same connections.
-/

namespace CodesSim.NetMan

open Groups

namespace SolidManager

variable (m : SolidManager)

/-- `get_connections_to_gid` for local connections. -/
def getLocalConnectionsToGid (destGid : ℤ) (includeFailed : Bool) : List Connection :=
  if includeFailed then get m.intraGroupConnectionsGID destGid
  else get m.intraGroupConnectionsGIDNofail destGid

/-- `get_routed_connections_to_group` with `get_next_hop`. -/
def getRoutedNextHops (groupId : ℤ) (includeFailed : Bool) : List Connection :=
  if includeFailed then
    (get m.routedConnectionsToGroupMap groupId).flatMap fun conn =>
      m.getLocalConnectionsToGid conn.srcGid includeFailed
  else
    (get m.routedConnectionsToGroupMapNofail groupId).flatMap fun conn =>
      m.getLocalConnectionsToGid conn.srcGid includeFailed

/-- `get_next_hop_routed_connections_to_group`. -/
def getNextHopRoutedConnectionsToGroup (groupId : ℤ) (includeFailed : Bool) : List Connection :=
  if includeFailed then get m.nextHopRoutedConnectionsToGroupMap groupId
  else get m.nextHopRoutedConnectionsToGroupMapNofail groupId

/-- The table has the connections that are computed. -/
def NextHopsAgree (groupId : ℤ) (includeFailed : Bool) : Prop :=
  ∀ conn, conn ∈ m.getNextHopRoutedConnectionsToGroup groupId includeFailed ↔
    conn ∈ m.getRoutedNextHops groupId includeFailed

end SolidManager

/-! ### The table -/

/-- **The table and the computed connections**, for connections by their destinations. -/
theorem mem_nextHops_iff {intra : ℤ → List Connection} {routed routed' : List Connection}
    (hkey : ∀ j, ∀ conn ∈ intra j, conn.destGid = j) (hsub : ∀ conn ∈ routed', conn ∈ routed) :
    (∀ conn, conn ∈ routed.flatMap
      (fun v => if 1 < (intra v.srcGid).length then intra v.srcGid else []) ↔
        conn ∈ routed'.flatMap fun v => intra v.srcGid) ↔
      ∀ j, ((∃ v ∈ routed', v.srcGid = j) → (intra j).length ≠ 1) ∧
        ((∃ v ∈ routed, v.srcGid = j) → 1 < (intra j).length → ∃ v ∈ routed', v.srcGid = j) := by
  have htable (conn : Connection) : conn ∈ routed.flatMap (fun v =>
      if 1 < (intra v.srcGid).length then intra v.srcGid else []) ↔
        ∃ v ∈ routed, 1 < (intra v.srcGid).length ∧ conn ∈ intra v.srcGid := by
    rw [List.mem_flatMap]
    refine exists_congr fun v => and_congr_right fun _ => ?_
    split_ifs with hmany
    · exact (and_iff_right hmany).symm
    · exact iff_of_false List.not_mem_nil fun h => hmany h.1
  simp only [htable, List.mem_flatMap]
  constructor
  · intro hall j
    constructor
    · rintro ⟨v, hv, rfl⟩ hone
      obtain ⟨conn, hconn⟩ := List.exists_mem_of_length_pos (hone ▸ Nat.one_pos)
      obtain ⟨v', -, hmany, hconn'⟩ := (hall conn).2 ⟨v, hv, hconn⟩
      rw [(hkey _ conn hconn').symm.trans (hkey _ conn hconn)] at hmany
      omega
    · rintro ⟨v, hv, rfl⟩ hmany
      obtain ⟨conn, hconn⟩ := List.exists_mem_of_length_pos (Nat.zero_lt_of_lt hmany)
      obtain ⟨v', hv', hconn'⟩ := (hall conn).1 ⟨v, hv, hmany, hconn⟩
      exact ⟨v', hv', (hkey _ conn hconn').symm.trans (hkey _ conn hconn)⟩
  · intro hcond conn
    constructor
    · rintro ⟨v, hv, hmany, hconn⟩
      obtain ⟨v', hv', hsrc⟩ := (hcond v.srcGid).2 ⟨v, hv, rfl⟩ hmany
      exact ⟨v', hv', hsrc ▸ hconn⟩
    · rintro ⟨v, hv, hconn⟩
      have hne := (hcond v.srcGid).1 ⟨v, hv, rfl⟩
      have hpos := List.length_pos_of_mem hconn
      exact ⟨v, hsub v hv, by omega, hconn⟩

/-! ### The routers of a network -/

variable {p : NetworkParam} {m : NetworkManager p} {links : List Link} {failures : List LinkInfo}

variable (p) in
/-- A router has a global link to a group, among some links. -/
def HasGlobal (between : ℤ → ℤ → List Link) (j g : ℤ) : Prop :=
  ∃ k, ∃ l ∈ between j k, l.connType = .connGlobal ∧ p.groupId k = g

variable (p) in
/-- A router of the group of a router has a global link to a group, among some links. -/
def LeadsTo (between : ℤ → ℤ → List Link) (i g j : ℤ) : Prop :=
  p.groupId j = p.groupId i ∧ HasGlobal p between j g

/-- **The routed connections of a router** are the links that lead to a group. -/
theorem exists_routed_iff (h : Linked links m) {conns : List Connection}
    (hconns : SamePorts m.routerConns conns) {Q : Connection → Bool}
    (hQ : ∀ conn, Q conn.noPort = Q conn) {between : ℤ → ℤ → List Link}
    (hbetween : ∀ i j, ((deref m.routerConns (m.routerToRouterConnectionMap (i, j))).filter Q).map
      Connection.healthy = (between i j).map (routerConn p ·.toLinkInfo)) (i g : ℕ)
    (hg : g < p.totalGroups) (j : ℤ) :
    (∃ v ∈ get ((m.setRouterConns conns).routedToGroups i) g, Q v = true ∧ v.srcGid = j) ↔
      LeadsTo p between i g j := by
  have hports : (∃ v ∈ conns, v.groups = some (p.groupId i, (g : ℤ)) ∧ Q v = true ∧ v.srcGid = j) ↔
      ∃ v ∈ m.routerConns, v.groups = some (p.groupId i, (g : ℤ)) ∧ Q v = true ∧ v.srcGid = j := by
    have hP (conn : Connection) : (conn.noPort.groups = some (p.groupId i, (g : ℤ)) ∧
        Q conn.noPort = true ∧ conn.noPort.srcGid = j) ↔
          conn.groups = some (p.groupId i, (g : ℤ)) ∧ Q conn = true ∧ conn.srcGid = j := by
      rw [hQ]
      rfl
    exact ⟨hconns.symm.exists hP, hconns.exists hP⟩
  rw [get_routedToGroups h hconns, if_pos ⟨g, hg, rfl⟩]
  simp only [List.mem_filter, decide_eq_true_eq, and_assoc]
  rw [hports]
  constructor
  · rintro ⟨v, hv, hgroups, hq, rfl⟩
    obtain ⟨l, hl, heq⟩ := h.link_of_conn (hbetween _ _) hv rfl hq
    obtain ⟨hglobal, hpair⟩ := (groups_eq_some heq rfl _).1 hgroups
    obtain ⟨hsrc, hdest⟩ := Prod.ext_iff.1 hpair
    exact ⟨hsrc, _, l, hl, hglobal, hdest⟩
  · rintro ⟨hsrc, k, l, hl, hglobal, hdest⟩
    obtain ⟨v, hv, hends, hq, heq⟩ := h.conn_of_link (hbetween j k) hl
    refine ⟨v, hv, (groups_eq_some heq hends _).2 ⟨hglobal, Prod.ext hsrc hdest⟩, hq, ?_⟩
    exact congrArg Prod.fst hends

/-! ### Agreement -/

theorem destGid_of_get {A : List Connection} {ty : ConnectionType}
    {groups : Std.ExtTreeMap ℤ (List Connection)} (h : By (destOf ty) A groups) {j : ℤ}
    {conn : Connection} (hconn : conn ∈ get groups j) : conn.destGid = j := by
  rw [h.get] at hconn
  have hkey : destOf ty conn = some j := by simpa using (List.mem_filter.1 hconn).2
  rw [destOf] at hkey
  split_ifs at hkey
  exact Option.some.inj hkey

/-- **The table of a router agrees with what is computed**, for any maps. -/
theorem ConnectionManager.nextHopsAgree_iff (man : ConnectionManager)
    (hkey : ∀ j, ∀ conn ∈ get man.intraGroupConnectionsGID j, conn.destGid = j) (g : ℤ) :
    (man.solidifyConnections.NextHopsAgree g true ↔ ∀ j,
      (∃ v ∈ get man.routedConnectionsToGroupMap g, v.srcGid = j) →
        (get man.intraGroupConnectionsGID j).length ≠ 1) ∧
    (man.solidifyConnections.NextHopsAgree g false ↔ ∀ j,
      ((∃ v ∈ get man.routedConnectionsToGroupMap g, (!v.isFailed) = true ∧ v.srcGid = j) →
        ((get man.intraGroupConnectionsGID j).filter (!·.isFailed)).length ≠ 1) ∧
      ((∃ v ∈ get man.routedConnectionsToGroupMap g, v.srcGid = j) →
        1 < ((get man.intraGroupConnectionsGID j).filter (!·.isFailed)).length →
          ∃ v ∈ get man.routedConnectionsToGroupMap g, (!v.isFailed) = true ∧ v.srcGid = j)) := by
  constructor
  · have htable (conn : Connection) :
        conn ∈ man.solidifyConnections.getNextHopRoutedConnectionsToGroup g true ↔
          conn ∈ (get man.routedConnectionsToGroupMap g).flatMap fun v =>
            if 1 < (get man.intraGroupConnectionsGID v.srcGid).length then
              get man.intraGroupConnectionsGID v.srcGid else [] := by
      rw [← get_collect]
      rfl
    rw [SolidManager.NextHopsAgree]
    simp only [htable]
    refine (mem_nextHops_iff hkey fun _ hconn => hconn).trans ?_
    exact forall_congr' fun j => and_iff_left fun hv _ => hv
  · have hintra := (filtered_withoutFailed man.intraGroupConnectionsGID).get
    have htable (conn : Connection) :
        conn ∈ man.solidifyConnections.getNextHopRoutedConnectionsToGroup g false ↔
          conn ∈ (get man.routedConnectionsToGroupMap g).flatMap fun v =>
            if 1 < ((get man.intraGroupConnectionsGID v.srcGid).filter (!·.isFailed)).length then
              (get man.intraGroupConnectionsGID v.srcGid).filter (!·.isFailed) else [] := by
      simp only [← hintra]
      rw [← get_collect]
      rfl
    have hcomputed (conn : Connection) : conn ∈ man.solidifyConnections.getRoutedNextHops g false ↔
        conn ∈ ((get man.routedConnectionsToGroupMap g).filter (!·.isFailed)).flatMap fun v =>
          (get man.intraGroupConnectionsGID v.srcGid).filter (!·.isFailed) := by
      simp only [← hintra]
      rw [← (filtered_withoutFailed man.routedConnectionsToGroupMap).get]
      rfl
    rw [SolidManager.NextHopsAgree]
    simp only [htable, hcomputed]
    have hkey' : ∀ j, ∀ conn ∈ (get man.intraGroupConnectionsGID j).filter (!·.isFailed),
        conn.destGid = j := fun j conn hconn => hkey j conn (List.mem_filter.1 hconn).1
    refine (mem_nextHops_iff hkey' fun conn hconn => (List.mem_filter.1 hconn).1).trans ?_
    simp only [List.mem_filter, and_assoc]

/-- **When the table has the connections that are computed**: with failed connections, if no router
that leads to the group is reached by exactly one local link; without them, if no router with a
working link to the group is reached by exactly one working local link, and none that is reached by
several has only failed links to the group. -/
theorem nextHops_agree_iff {enabled : Bool} {net : Network}
    (hnet : solidify p enabled links failures = some net) {i g : ℕ} (hi : i < p.totalRouters)
    (hg : g < p.totalGroups) :
    ((net.routers i).NextHopsAgree g true ↔ ∀ j, LeadsTo p (linksBetween links) i g j →
      (localLinks (linksBetween links i j)).length ≠ 1) ∧
    ((net.routers i).NextHopsAgree g false ↔ ∀ j,
      (LeadsTo p (workingBetween links failures) i g j →
        (localLinks (workingBetween links failures i j)).length ≠ 1) ∧
      (LeadsTo p (linksBetween links) i g j →
        1 < (localLinks (workingBetween links failures i j)).length →
          LeadsTo p (workingBetween links failures) i g j)) := by
  obtain ⟨m, conns, A, B, h, hfailed, hconns, hA, hB, hholds, hrouted, hsolid⟩ :=
    solidify_router hnet hi
  have hlocal : ConnectionType.connLocal ≠ .connTerminal := nofun
  have hlen (j : ℤ) := length_router h hfailed (get_router h hA hB hlocal hholds.intraGID j)
  have hbetween (i j : ℤ) : ((deref m.routerConns (m.routerToRouterConnectionMap (i, j))).filter
      fun _ => true).map Connection.healthy = (linksBetween links i j).map
      (routerConn p ·.toLinkInfo) := by
    rw [List.filter_true]
    exact h.between i j
  have hall (j : ℤ) := exists_routed_iff h hconns (fun _ => rfl) hbetween i g hg j
  have hworking (j : ℤ) := exists_routed_iff h hconns (Q := fun conn => !conn.isFailed)
    (fun _ => rfl)
    (h.working hfailed) i g hg j
  simp only [true_and] at hall
  rw [← hrouted] at hall hworking
  obtain ⟨hfull, hnofail⟩ := (net.routers i).toConnectionManager.nextHopsAgree_iff
    (fun j conn hconn => destGid_of_get hholds.intraGID hconn) g
  rw [hsolid]
  constructor
  · refine hfull.trans (forall_congr' fun j => ?_)
    rw [hall, (hlen j).1]
    rfl
  · refine hnofail.trans (forall_congr' fun j => ?_)
    rw [hall, hworking, (hlen j).2]
    rfl

/-- With three links between the routers of a group the table is right. -/
theorem nextHops_agree_threeLinks : ∃ net,
    solidify twoGroups true (parallelLinks 3) oneFailure = some net ∧
      (net.routers 0).NextHopsAgree 1 true := by
  have hsome : (solidify twoGroups true (parallelLinks 3) oneFailure).isSome = true := by
    decide +kernel
  obtain ⟨net, hnet⟩ := Option.isSome_iff_exists.1 hsome
  refine ⟨net, hnet, (nextHops_agree_iff hnet (by decide) (by decide) (i := 0) (g := 1)).1.2 ?_⟩
  rintro j ⟨-, k, l, hl, hglobal, -⟩
  have hmem : l ∈ parallelLinks 3 := (List.mem_filter.1 hl).1
  have hsrc : l.srcGid = j := by
    have := (List.mem_filter.1 hl).2
    simp only [decide_eq_true_eq] at this
    exact this.2.1
  have hnone : ∀ l ∈ parallelLinks 3,
      (localLinks (linksBetween (parallelLinks 3) (0 : ℕ) l.srcGid)).length ≠ 1 := by decide +kernel
  exact hsrc ▸ hnone l hmem

/-- **A single local link is not in the table**: router 0 does not learn that router 1 leads to the
other group. -/
theorem singleLink_not_in_table : ¬ ∀ (p : NetworkParam) (enabled : Bool) (links : List Link)
    (failures : List LinkInfo) (net : Network), solidify p enabled links failures = some net →
      ∀ i g : ℕ, i < p.totalRouters → g < p.totalGroups → ∀ includeFailed,
        (net.routers i).NextHopsAgree g includeFailed := by
  intro h
  have hsome : (solidify twoGroups true (parallelLinks 1) []).map (fun net =>
      ((net.routers 0).getNextHopRoutedConnectionsToGroup 1 true,
        (net.routers 0).getRoutedNextHops 1 true != [])) = some ([], true) := by
    decide +kernel
  obtain ⟨net, hnet, heq⟩ := Option.map_eq_some_iff.1 hsome
  obtain ⟨htable, hcomputed⟩ := Prod.mk.inj heq
  obtain ⟨conn, hconn⟩ := List.exists_mem_of_ne_nil _ (bne_iff_ne.1 hcomputed)
  have hin : conn ∈ (net.routers 0).getNextHopRoutedConnectionsToGroup 1 true :=
    (h _ _ _ _ net hnet 0 1 (by decide) (by decide) true conn).2 hconn
  rw [htable] at hin
  exact List.not_mem_nil hin

end CodesSim.NetMan
