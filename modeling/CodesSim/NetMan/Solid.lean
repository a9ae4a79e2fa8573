import CodesSim.NetMan.Failures

/-!
# Solidified connection managers

The ports of the connections of a router (`Holds.ports_of`), the maps of `solidify_connections`
without failed connections (`nofail_solidify_iff`), the groups that a router is told to be joined
(`mem_groupGroup`) and what `add_conns_to_connection_managers` gives to each manager
(`addConnsToConnectionManagers_spec`).
-/

namespace CodesSim.NetMan

open Groups

/-! ### Ports -/

/-- The connections of a router. -/
def SolidManager.connections (m : SolidManager) : List Connection :=
  elems m.intraGroupConnectionsGID ++ elems m.globalConnections ++ elems m.terminalConnections

/-- **The ports of a router**: local ones first, then global ones, then those to terminals. -/
structure SolidManager.Ports (m : SolidManager) : Prop where
  localPort : ∀ conn ∈ elems m.intraGroupConnectionsGID, 0 ≤ conn.port ∧ conn.port < m.maxIntraPorts
  globalPort : ∀ conn ∈ elems m.globalConnections,
    m.maxIntraPorts ≤ conn.port ∧ conn.port < m.maxIntraPorts + m.maxInterPorts
  terminalPort : ∀ conn ∈ elems m.terminalConnections,
    m.maxIntraPorts + m.maxInterPorts ≤ conn.port ∧
      conn.port < m.maxIntraPorts + m.maxInterPorts + m.maxTerminalPorts
  sameLocal : (elems m.intraGroupConnections).Perm (elems m.intraGroupConnectionsGID)
  distinct : (m.connections.map Connection.port).Nodup
  inverse : ∀ port conn, m.getConnectionOnPort port true = some conn ↔
    conn ∈ m.connections ∧ conn.port = port

section Ports

variable {A : List Connection} {m : SolidManager}

theorem elems_destOf {ty : ConnectionType} {groups : Std.ExtTreeMap ℤ (List Connection)}
    (h : By (destOf ty) A groups) :
    (elems groups).Perm (A.filter fun conn => conn.connType = ty) := by
  have hsome : (fun conn : Connection => (destOf ty conn).isSome) =
      fun conn => decide (conn.connType = ty) := by
    funext conn
    by_cases hty : conn.connType = ty <;> simp [destOf, hty]
  exact hsome ▸ h.elems

theorem Holds.mem_connections (h : Holds A m.toConnectionManager) (conn : Connection) :
    conn ∈ m.connections ↔ conn ∈ A := by
  rw [SolidManager.connections, List.mem_append, List.mem_append, (elems_destOf h.intraGID).mem_iff,
    (elems_destOf h.global).mem_iff, (elems_destOf h.terminal).mem_iff, List.mem_filter,
    List.mem_filter, List.mem_filter]
  constructor
  · rintro ((⟨hconn, -⟩ | ⟨hconn, -⟩) | ⟨hconn, -⟩) <;> exact hconn
  · intro hconn
    obtain ⟨hty, -⟩ | ⟨hty, -⟩ | ⟨hty, -⟩ := h.port_cases hconn <;> simp [hconn, hty]

theorem Holds.ports_of (h : Holds A m.toConnectionManager) : m.Ports where
  localPort conn hconn := by
    obtain ⟨hA, hty⟩ := List.mem_filter.1 ((elems_destOf h.intraGID).mem_iff.1 hconn)
    have hty : conn.connType = .connLocal := by simpa using hty
    have hle := h.localLe
    obtain ⟨-, k, hk, hport⟩ | ⟨hty', -⟩ | ⟨hty', -⟩ := h.port_cases hA
    · omega
    · cases hty.symm.trans hty'
    · cases hty.symm.trans hty'
  globalPort conn hconn := by
    obtain ⟨hA, hty⟩ := List.mem_filter.1 ((elems_destOf h.global).mem_iff.1 hconn)
    have hty : conn.connType = .connGlobal := by simpa using hty
    have hle := h.globalLe
    obtain ⟨hty', -⟩ | ⟨-, k, hk, hport⟩ | ⟨hty', -⟩ := h.port_cases hA
    · cases hty.symm.trans hty'
    · omega
    · cases hty.symm.trans hty'
  terminalPort conn hconn := by
    obtain ⟨hA, hty⟩ := List.mem_filter.1 ((elems_destOf h.terminal).mem_iff.1 hconn)
    have hty : conn.connType = .connTerminal := by simpa using hty
    have hle := h.terminalLe
    obtain ⟨hty', -⟩ | ⟨hty', -⟩ | ⟨-, k, hk, hport⟩ := h.port_cases hA
    · cases hty.symm.trans hty'
    · cases hty.symm.trans hty'
    · omega
  sameLocal := by
    have hsome : (fun conn : Connection => (if conn.connType = .connLocal then some conn.destLid
        else none).isSome) = fun conn => (destOf .connLocal conn).isSome := by
      funext conn
      by_cases hty : conn.connType = .connLocal <;> simp [destOf, hty]
    exact (hsome ▸ h.intra.elems).trans h.intraGID.elems.symm
  distinct := by
    have hperm : (m.connections.map Connection.port).Perm
        ((A.filter fun conn => conn.connType = .connLocal).map Connection.port ++
          (A.filter fun conn => conn.connType = .connGlobal).map Connection.port ++
          (A.filter fun conn => conn.connType = .connTerminal).map Connection.port) := by
      rw [← List.map_append, ← List.map_append]
      exact (((elems_destOf h.intraGID).append (elems_destOf h.global)).append
        (elems_destOf h.terminal)).map _
    rw [hperm.nodup_iff, h.localPorts, h.globalPorts, h.terminalPorts]
    have hle := h.localLe
    have hle' := h.globalLe
    have hrange : ∀ (n : ℕ) (a : ℤ), ((List.range n).map fun k : ℕ => a + k).Nodup := fun n a =>
      (List.nodup_map_iff fun k k' hk => by
        have hk : a + k = a + k' := hk
        omega).2 List.nodup_range
    refine List.nodup_append.2 ⟨List.nodup_append.2 ⟨?_, hrange _ _, ?_⟩, hrange _ _, ?_⟩
    · simpa using hrange m.usedIntraPorts 0
    · intro a ha b hb hab
      obtain ⟨k, hk, rfl⟩ := List.mem_map.1 ha
      obtain ⟨k', hk', rfl⟩ := List.mem_map.1 hb
      have h1 := List.mem_range.1 hk
      omega
    · intro a ha b hb hab
      obtain ⟨k', hk', rfl⟩ := List.mem_map.1 hb
      obtain ha | ha := List.mem_append.1 ha
      · obtain ⟨k, hk, rfl⟩ := List.mem_map.1 ha
        have h1 := List.mem_range.1 hk
        omega
      · obtain ⟨k, hk, rfl⟩ := List.mem_map.1 ha
        have h1 := List.mem_range.1 hk
        omega
  inverse port conn := by
    have hget : m.getConnectionOnPort port true = m.portMap[port]? := by
      rw [SolidManager.getConnectionOnPort]
      cases m.portMap[port]? <;> simp
    rw [hget, h.mem_connections]
    constructor
    · exact h.onPorts port conn
    · rintro ⟨hconn, rfl⟩
      exact h.ports conn hconn

end Ports

/-! ### Maps without failed connections -/

/-- A map is another one without the failed connections. -/
structure Filtered (full nofail : Std.ExtTreeMap ℤ (List Connection)) : Prop where
  get : ∀ k, get nofail k = (get full k).filter (!·.isFailed)
  noEmpty : NoEmpty nofail

theorem filtered_withoutFailed (full : Std.ExtTreeMap ℤ (List Connection)) :
    Filtered full (withoutFailed full) where
  get k := by
    rw [withoutFailed, get_collect]
    induction Groups.get full k with
    | nil => rfl
    | cons conn l ih =>
      rw [List.flatMap_cons, ih]
      cases hconn : conn.isFailed <;> simp [hconn]
  noEmpty := noEmpty_collect _ _

/-- Among several connections to a router that leads on, one works. -/
def LoneHop (routed intra : Std.ExtTreeMap ℤ (List Connection)) : Prop :=
  ∃ g, ∃ conn ∈ get routed g, 1 < (get intra conn.srcGid).length ∧
    ((get intra conn.srcGid).filter (!·.isFailed)).length = 1

theorem flatMap_eq_iff {α β : Type} {l : List α} {f g : α → List β}
    (h : ∀ a ∈ l, f a = g a ∨ (f a = [] ∧ g a ≠ [])) :
    l.flatMap f = l.flatMap g ↔ ∀ a ∈ l, f a = g a := by
  constructor
  · intro heq
    have hlen : ∀ l' : List α, (∀ a ∈ l', f a = g a ∨ (f a = [] ∧ g a ≠ [])) →
        (l'.flatMap f).length ≤ (l'.flatMap g).length ∧
          ((l'.flatMap f).length = (l'.flatMap g).length → ∀ a ∈ l', f a = g a) := by
      intro l'
      induction l' with
      | nil => simp
      | cons a l' ih =>
        intro hall
        obtain ⟨hle, hrec⟩ := ih fun a' ha' => hall a' (List.mem_cons_of_mem _ ha')
        rw [List.flatMap_cons, List.flatMap_cons, List.length_append, List.length_append]
        obtain hfg | ⟨hf, hg⟩ := hall a List.mem_cons_self
        · rw [hfg]
          refine ⟨by omega, fun hsum a' ha' => ?_⟩
          obtain rfl | ha' := List.mem_cons.1 ha'
          · exact hfg
          · exact hrec (by omega) a' ha'
        · have hpos := List.length_pos_iff.2 hg
          rw [hf, List.length_nil]
          exact ⟨by omega, fun hsum => by omega⟩
    exact (hlen l h).2 (congrArg List.length heq)
  · intro hall
    exact List.flatMap_congr hall

theorem nextHop_cases (l : List Connection) :
    ((if 1 < (l.filter (!·.isFailed)).length then l.filter (!·.isFailed) else []) =
        (if 1 < l.length then l else []).filter (!·.isFailed) ∧
      ¬ (1 < l.length ∧ (l.filter (!·.isFailed)).length = 1)) ∨
    ((if 1 < (l.filter (!·.isFailed)).length then l.filter (!·.isFailed) else []) = [] ∧
      (if 1 < l.length then l else []).filter (!·.isFailed) ≠ [] ∧
      1 < l.length ∧ (l.filter (!·.isFailed)).length = 1) := by
  have hle := List.length_filter_le (fun conn : Connection => !conn.isFailed) l
  by_cases hl : 1 < l.length
  · rw [if_pos hl]
    by_cases hone : (l.filter (!·.isFailed)).length = 1
    · refine .inr ⟨if_neg (by omega), fun hnil => ?_, hl, hone⟩
      rw [hnil] at hone
      cases hone
    · refine .inl ⟨?_, fun h => hone h.2⟩
      split_ifs with hmany
      · rfl
      · exact (List.length_eq_zero_iff.1 (by omega)).symm
  · rw [if_neg hl, if_neg (by omega)]
    exact .inl ⟨rfl, fun h => hl h.1⟩

/-- **The next hops are filtered, but for lone ones.** -/
theorem filtered_nextHops_iff (routed intra : Std.ExtTreeMap ℤ (List Connection)) :
    Filtered (nextHops routed intra) (nextHops routed (withoutFailed intra)) ↔
    ¬ LoneHop routed intra := by
  have hintra := (filtered_withoutFailed intra).get
  have hget : ∀ g, get (nextHops routed (withoutFailed intra)) g =
      (get (nextHops routed intra) g).filter (!·.isFailed) ↔ ∀ conn ∈ get routed g,
        ¬ (1 < (get intra conn.srcGid).length ∧
          ((get intra conn.srcGid).filter (!·.isFailed)).length = 1) := by
    intro g
    rw [nextHops, nextHops, get_collect, get_collect, List.filter_flatMap]
    simp only [hintra]
    rw [flatMap_eq_iff]
    · refine forall₂_congr fun conn _ => ?_
      obtain ⟨heq, hnot⟩ | ⟨hnil, hne, hlone⟩ := nextHop_cases (get intra conn.srcGid)
      · exact iff_of_true heq hnot
      · exact iff_of_false (fun heq => hne (heq.symm.trans hnil)) fun hnot => hnot hlone
    · intro conn _
      obtain ⟨heq, -⟩ | ⟨hnil, hne, -⟩ := nextHop_cases (get intra conn.srcGid)
      · exact .inl heq
      · exact .inr ⟨hnil, hne⟩
  constructor
  · rintro h ⟨g, conn, hconn, hlone⟩
    exact (hget g).1 (h.get g) conn hconn hlone
  · intro h
    refine ⟨fun g => (hget g).2 fun conn hconn hlone => h ⟨g, conn, hconn, hlone⟩,
      noEmpty_collect _ _⟩

/-- **The maps without failed connections** of a manager are its full maps filtered. -/
structure SolidManager.Nofail (m : SolidManager) : Prop where
  intra : Filtered m.intraGroupConnections m.intraGroupConnectionsNofail
  intraGID : Filtered m.intraGroupConnectionsGID m.intraGroupConnectionsGIDNofail
  global : Filtered m.globalConnections m.globalConnectionsNofail
  terminal : Filtered m.terminalConnections m.terminalConnectionsNofail
  injection : Filtered m.injectionConnections m.injectionConnectionsNofail
  toGroups : Filtered m.connectionsToGroupsMap m.connectionsToGroupsMapNofail
  byType : Filtered m.allConnsByTypeMap m.allConnsByTypeMapNofail
  routed : Filtered m.routedConnectionsToGroupMap m.routedConnectionsToGroupMapNofail
  nextHop : Filtered m.nextHopRoutedConnectionsToGroupMap m.nextHopRoutedConnectionsToGroupMapNofail
  /-- A router has a working connection to a group. -/
  routedGids : ∀ g gid, gid ∈ get m.routedRouterGidsToGroupMapNofail g ↔
    gid ∈ get m.routedRouterGidsToGroupMap g ∧
      ∃ conn ∈ get m.routedConnectionsToGroupMapNofail g, conn.srcGid = gid

/-- **What `solidify_connections` makes of a manager.** -/
theorem nofail_solidify_iff (m : ConnectionManager) : m.solidifyConnections.Nofail ↔
    ¬ LoneHop m.routedConnectionsToGroupMap m.intraGroupConnectionsGID := by
  rw [← filtered_nextHops_iff]
  constructor
  · exact fun h => h.nextHop
  · intro h
    refine ⟨filtered_withoutFailed _, filtered_withoutFailed _, filtered_withoutFailed _,
      filtered_withoutFailed _, filtered_withoutFailed _, filtered_withoutFailed _,
      filtered_withoutFailed _, filtered_withoutFailed _, h, fun g gid => ?_⟩
    have hworking : ∀ conn, conn ∈ get m.solidifyConnections.routedConnectionsToGroupMapNofail g ↔
        conn ∈ get m.routedConnectionsToGroupMap g ∧ conn.isFailed = false := by
      intro conn
      have hget := (filtered_withoutFailed m.routedConnectionsToGroupMap).get g
      change conn ∈ get (withoutFailed m.routedConnectionsToGroupMap) g ↔ _
      rw [hget, List.mem_filter]
      simp
    have hnofail : gid ∈ get m.solidifyConnections.routedRouterGidsToGroupMapNofail g ↔
        ∃ conn ∈ get m.routedConnectionsToGroupMap g,
          (if conn.isFailed then none else some conn.srcGid) = some gid := mem_collectSet
    have hfull : gid ∈ get m.solidifyConnections.routedRouterGidsToGroupMap g ↔
        ∃ conn ∈ get m.routedConnectionsToGroupMap g, some conn.srcGid = some gid := mem_collectSet
    rw [hnofail, hfull]
    simp only [hworking]
    constructor
    · rintro ⟨conn, hconn, hgid⟩
      split_ifs at hgid with hfail
      cases hgid
      exact ⟨⟨conn, hconn, rfl⟩, conn, ⟨hconn, by simpa using hfail⟩, rfl⟩
    · rintro ⟨-, conn, ⟨hconn, hfail⟩, rfl⟩
      exact ⟨conn, hconn, by rw [hfail]; rfl⟩

/-! ### Groups -/

theorem groupGroup_frame (m : ConnectionManager) (es : List ((ℤ × ℤ) × List Connection)) :
    ∃ full nofail, m.addGroupGroupConnectionInformation es = { m with
      groupGroupConnectionMap := full
      groupGroupConnectionMapNofail := nofail } := by
  induction es generalizing m with
  | nil => exact ⟨_, _, rfl⟩
  | cons e es ih =>
    obtain ⟨full, nofail, heq⟩ := ih (m.addGroupGroup e)
    refine ⟨full, nofail, ?_⟩
    rw [ConnectionManager.addGroupGroupConnectionInformation, List.foldl_cons]
    refine heq.trans ?_
    rw [ConnectionManager.addGroupGroup]
    split_ifs <;> rfl

theorem addGroupGroup_full (m : ConnectionManager) (e : (ℤ × ℤ) × List Connection) :
    (m.addGroupGroup e).groupGroupConnectionMap = if 0 < e.2.length then
      addAsIfSet (addAsIfSet m.groupGroupConnectionMap e.1.1 e.1.2) e.1.2 e.1.1
    else m.groupGroupConnectionMap := by
  simp only [ConnectionManager.addGroupGroup]
  split_ifs <;> rfl

theorem addGroupGroup_nofail (m : ConnectionManager) (e : (ℤ × ℤ) × List Connection) :
    (m.addGroupGroup e).groupGroupConnectionMapNofail = if e.2.any fun conn => !conn.isFailed then
      addAsIfSet (addAsIfSet m.groupGroupConnectionMapNofail e.1.1 e.1.2) e.1.2 e.1.1
    else m.groupGroupConnectionMapNofail := by
  simp only [ConnectionManager.addGroupGroup]
  split_ifs <;> rfl

theorem mem_groupGroup (m : ConnectionManager) (es : List ((ℤ × ℤ) × List Connection)) (g g' : ℤ) :
    (g' ∈ get (m.addGroupGroupConnectionInformation es).groupGroupConnectionMap g ↔
      g' ∈ get m.groupGroupConnectionMap g ∨
        ∃ e ∈ es, (∃ conn, conn ∈ e.2) ∧ (e.1 = (g, g') ∨ e.1 = (g', g))) ∧
    (g' ∈ get (m.addGroupGroupConnectionInformation es).groupGroupConnectionMapNofail g ↔
      g' ∈ get m.groupGroupConnectionMapNofail g ∨
        ∃ e ∈ es, (∃ conn ∈ e.2, conn.isFailed = false) ∧ (e.1 = (g, g') ∨ e.1 = (g', g))) := by
  induction es generalizing m with
  | nil => simp [ConnectionManager.addGroupGroupConnectionInformation]
  | cons e es ih =>
    obtain ⟨hfull, hnofail⟩ := ih (m.addGroupGroup e)
    have hadd : ∀ joined : Std.ExtTreeMap ℤ (List ℤ),
        g' ∈ get (addAsIfSet (addAsIfSet joined e.1.1 e.1.2) e.1.2 e.1.1) g ↔
          g' ∈ get joined g ∨ e.1 = (g, g') ∨ e.1 = (g', g) := by
      intro joined
      rw [mem_addAsIfSet, mem_addAsIfSet, or_assoc]
      obtain ⟨⟨a, b⟩, conns⟩ := e
      simp only [Prod.mk.injEq, eq_comm (a := g')]
      tauto
    have hhead : g' ∈ get (m.addGroupGroup e).groupGroupConnectionMap g ↔
        g' ∈ get m.groupGroupConnectionMap g ∨
          ((∃ conn, conn ∈ e.2) ∧ (e.1 = (g, g') ∨ e.1 = (g', g))) := by
      have hpos : (∃ conn, conn ∈ e.2) ↔ 0 < e.2.length := List.length_pos_iff_exists_mem.symm
      rw [hpos, addGroupGroup_full]
      split_ifs with hlen
      · rw [hadd, and_iff_right hlen]
      · exact (or_iff_left fun h => hlen h.1).symm
    have hhead' : g' ∈ get (m.addGroupGroup e).groupGroupConnectionMapNofail g ↔
        g' ∈ get m.groupGroupConnectionMapNofail g ∨
          ((∃ conn ∈ e.2, conn.isFailed = false) ∧ (e.1 = (g, g') ∨ e.1 = (g', g))) := by
      have hany : (∃ conn ∈ e.2, conn.isFailed = false) ↔
        (e.2.any fun conn => !conn.isFailed) = true := by
        simp
      rw [hany, addGroupGroup_nofail]
      split_ifs with hwork
      · rw [hadd, and_iff_right hwork]
      · exact (or_iff_left fun h => hwork h.1).symm
    rw [ConnectionManager.addGroupGroupConnectionInformation, List.foldl_cons]
    constructor
    · refine hfull.trans ?_
      rw [hhead, or_assoc, List.exists_mem_cons_iff]
    · refine hnofail.trans ?_
      rw [hhead', or_assoc, List.exists_mem_cons_iff]

variable {p : NetworkParam} {m : NetworkManager p} {links : List Link} {failures : List LinkInfo}

variable {conns : List Connection}

theorem Linked.groups_deref (h : Linked links m)
    (hconns : SamePorts m.routerConns conns) (k : ℤ × ℤ) :
    deref conns (get m.globalGroupConnectionMap k) = conns.filter fun conn =>
      conn.groups = some k := by
  have hget : ∀ ptr : ℕ, m.routerConns[ptr]?.bind Connection.groups = conns[ptr]?.bind
    Connection.groups := by
    intro ptr
    have hmap := congrArg (fun l : List Connection => l[ptr]?.bind Connection.groups) hconns
    have hcomp : Connection.groups ∘ Connection.noPort = Connection.groups := rfl
    simpa only [List.getElem?_map, Option.bind_map, hcomp] using hmap.symm
  rw [h.groups.get, deref, ← filterMap_range conns fun conn => conn.groups = some k, hconns.length]
  congr 1
  refine List.filter_congr fun ptr _ => ?_
  rw [hget]
  cases conns[ptr]? <;> simp

theorem mem_groupGroups (h : Linked links m)
    (hconns : SamePorts m.routerConns conns) {k : ℤ × ℤ} {P : Connection → Prop} :
    (∃ e ∈ (m.setRouterConns conns).groupGroups, (∃ conn ∈ e.2, P conn) ∧ e.1 = k) ↔
      ∃ conn ∈ conns, conn.groups = some k ∧ P conn := by
  constructor
  · rintro ⟨e, he, ⟨conn, hconn, hP⟩, rfl⟩
    obtain ⟨⟨k, ptrs⟩, hk, rfl⟩ := List.mem_map.1 he
    have hget : m.globalGroupConnectionMap[k]? = some ptrs :=
      Std.ExtTreeMap.mem_toList_iff_getElem?_eq_some.1 hk
    have hptrs : get m.globalGroupConnectionMap k = ptrs := by
      rw [Groups.get, hget, Option.getD_some]
    have hmem : conn ∈ deref conns (get m.globalGroupConnectionMap k) := by
      rw [hptrs]
      exact hconn
    rw [h.groups_deref hconns, List.mem_filter] at hmem
    exact ⟨conn, hmem.1, by simpa using hmem.2, hP⟩
  · rintro ⟨conn, hconn, hk, hP⟩
    have hmem : conn ∈ deref conns (get m.globalGroupConnectionMap k) := by
      rw [h.groups_deref hconns]
      exact List.mem_filter.2 ⟨hconn, by simpa using hk⟩
    cases hget : m.globalGroupConnectionMap[k]? with
    | none => simp [Groups.get, hget, deref] at hmem
    | some ptrs =>
      rw [Groups.get, hget] at hmem
      exact ⟨_, List.mem_map.2
        ⟨(k, ptrs), Std.ExtTreeMap.mem_toList_iff_getElem?_eq_some.2 hget, rfl⟩,
        ⟨conn, hmem, hP⟩, rfl⟩

theorem get_routedToGroups (h : Linked links m)
    (hconns : SamePorts m.routerConns conns) (i : ℕ) (g : ℤ) :
    get ((m.setRouterConns conns).routedToGroups i) g =
      if ∃ j : ℕ, j < p.totalGroups ∧ (j : ℤ) = g then
        conns.filter fun conn => conn.groups = some (p.groupId i, g)
      else [] := by
  have hfold : ∀ (n : ℕ), get ((List.range n).foldl (fun acc (j : ℕ) => acc.insert (j : ℤ)
      (deref conns (get m.globalGroupConnectionMap (p.groupId i, (j : ℤ)))))
        (∅ : Std.ExtTreeMap ℤ (List Connection))) g =
      if ∃ j : ℕ, j < n ∧ (j : ℤ) = g then conns.filter fun conn =>
        conn.groups = some (p.groupId i, g)
      else [] := by
    intro n
    induction n with
    | zero => simp
    | succ n ih =>
      rw [List.range_succ, List.foldl_append, List.foldl_cons, List.foldl_nil,
        Groups.get, Groups.getElem?_insert]
      by_cases hn : (n : ℤ) = g
      · rw [if_pos hn, if_pos ⟨n, Nat.lt_succ_self n, hn⟩, Option.getD_some,
          h.groups_deref hconns, hn]
      · rw [if_neg hn]
        refine ih.trans ?_
        have hiff : (∃ j : ℕ, j < n ∧ (j : ℤ) = g) ↔ ∃ j : ℕ, j < n + 1 ∧ (j : ℤ) = g := by
          constructor
          · rintro ⟨j, hj, hg⟩
            exact ⟨j, Nat.lt_succ_of_lt hj, hg⟩
          · rintro ⟨j, hj, hg⟩
            obtain hj | rfl := Nat.lt_succ_iff_lt_or_eq.1 hj
            · exact ⟨j, hj, hg⟩
            · exact absurd hg hn
        simp only [hiff]
  exact hfold p.totalGroups

/-! ### The managers of a network -/

variable {conn : Connection}

theorem Linked.router_type (h : Linked links m) (hconn : conn ∈ m.routerConns) :
    conn.connType = .connLocal ∨ conn.connType = .connGlobal := by
  have hmem : conn.healthy ∈ (routerLinks links).map (routerConn p ·.toLinkInfo) :=
    h.routers ▸ List.mem_map_of_mem hconn
  obtain ⟨l, hl, heq⟩ := List.mem_map.1 hmem
  have hty : conn.connType = l.connType := congrArg Connection.connType heq.symm
  have hnot : l.connType ≠ .connTerminal := by simpa using (List.mem_filter.1 hl).2
  rw [hty]
  cases hl : l.connType with
  | connLocal => exact .inl rfl
  | connGlobal => exact .inr rfl
  | connTerminal => exact absurd hl hnot
  | connInjection => exact absurd hl l.notInjection

theorem Linked.terminal_type (h : Linked links m) (hconn : conn ∈ m.terminalConns) :
    conn.connType = .connTerminal ∧ conn.destGroupId = p.groupId conn.srcGid := by
  have hmem : conn.healthy ∈ (terminalLinks links).map (terminalConn p ·.toLinkInfo) :=
    h.terminals ▸ List.mem_map_of_mem hconn
  obtain ⟨l, hl, heq⟩ := List.mem_map.1 hmem
  have hty : l.connType = .connTerminal := by simpa using (List.mem_filter.1 hl).2
  have hsrc : l.srcGid = conn.srcGid := congrArg Connection.srcGid heq
  exact ⟨(congrArg Connection.connType heq.symm).trans hty,
    (congrArg Connection.destGroupId heq.symm).trans (congrArg p.groupId hsrc)⟩

theorem Linked.injection_type (h : Linked links m)
    (hconn : conn ∈ m.injectionConns) : conn.connType = .connInjection := by
  have hmem : conn.healthy ∈ (terminalLinks links).map (injectionConn p ·.toLinkInfo) :=
    h.injections ▸ List.mem_map_of_mem hconn
  obtain ⟨l, -, heq⟩ := List.mem_map.1 hmem
  exact congrArg Connection.connType heq.symm

/-- The connections of a router or a terminal. -/
def fromSrc (conns : List Connection) (i : ℤ) : List Connection := conns.filter fun conn =>
    conn.srcGid = i

/-- Pointers of different owners differ. -/
theorem src_disjoint {index : ℤ → List ℕ}
    (h : Indexes Connection.srcGid conns index) {i j : ℕ} (hij : i ≠ j) {ptr : ℕ}
    (hptr : ptr ∈ index i) : ptr ∉ index j := by
  intro hptr'
  obtain ⟨conn, hconn, hi⟩ := h.mem.1 hptr
  obtain ⟨conn', hconn', hj⟩ := h.mem.1 hptr'
  cases hconn.symm.trans hconn'
  exact hij (by exact_mod_cast hi.symm.trans hj)

theorem mem_of_deref {ptrs : List ℕ} (h : conn ∈ deref conns ptrs) : conn ∈ conns := by
  obtain ⟨i, -, heq⟩ := List.mem_filterMap.1 h
  exact List.mem_of_getElem? heq

/-- A router is made of its links and those to its terminals. -/
def Given (m : NetworkManager p) (conns : List Connection) (i : ℕ) (router : SolidManager) : Prop :=
  ∃ man A B, Holds (A ++ B) man ∧
    SamePorts (fromSrc m.routerConns i) A ∧ SamePorts (fromSrc m.terminalConns i) B ∧
    man.groupGroupConnectionMap = ∅ ∧ man.groupGroupConnectionMapNofail = ∅ ∧
    (man.maxIntraPorts, man.maxInterPorts, man.maxTerminalPorts) =
      (p.numLcPr, p.numGcPr, p.numCnPr) ∧
    router = ((man.setRoutedConnectionsToGroups
      ((m.setRouterConns conns).routedToGroups i)).addGroupGroupConnectionInformation
        (m.setRouterConns conns).groupGroups).solidifyConnections

/-- **What the managers of routers are given**: each its links and those to its terminals. -/
theorem addConnsToConnectionManagers_routers (h : Linked links m) {net : Network}
    (hadd : m.addConnsToConnectionManagers = some net) :
    ∃ conns, SamePorts m.routerConns conns ∧
      ∀ i : ℕ, i < p.totalRouters → Given m conns i (net.routers i) := by
  obtain ⟨⟨mans, conns⟩, h₁, hadd⟩ := Option.bind_eq_some_iff.1 hadd
  obtain ⟨⟨mans', conns'⟩, h₂, hadd⟩ := Option.bind_eq_some_iff.1 hadd
  obtain ⟨⟨tmans, tconns⟩, h₃, hadd⟩ := Option.map_eq_some_iff.1 hadd
  subst hadd
  obtain ⟨hsame, -, -, hholds⟩ := addConnsToAll_spec (A := fun _ => []) List.nodup_range
    (fun i => h.ofRouter.nodup i) (fun i j hij ptr hptr => src_disjoint h.ofRouter hij hptr)
    (fun i _ => holds_new _ _ _ _) (fun i _ conn hconn => by
      obtain hty | hty := h.router_type (mem_of_deref hconn) <;> simp [hty]) h₁
  obtain ⟨hsame', -, -, hholds'⟩ := addConnsToAll_spec
    (A := fun i : ℕ => deref conns (m.routerConnectionsMap i)) List.nodup_range
    (fun i => h.ofRouterTerminals.nodup i)
    (fun i j hij ptr hptr => src_disjoint h.ofRouterTerminals hij hptr)
    (fun i hi => (hholds i hi).1) (fun i hi conn hconn => by
      obtain ⟨hty, hgroup⟩ := h.terminal_type (mem_of_deref hconn)
      obtain ⟨ptr, hptr, heq⟩ := List.mem_filterMap.1 hconn
      obtain ⟨conn', hconn', hsrc⟩ := h.ofRouterTerminals.mem.1 hptr
      cases heq.symm.trans hconn'
      have hframe : (mans i).sourceGroup = p.groupId i := congrArg Prod.fst (hholds i hi).2
      refine ⟨by simp [hty], fun _ => ?_⟩
      rw [hgroup, hsrc, hframe]) h₂
  refine ⟨conns, hsame, fun i hi => ?_⟩
  have hi' := List.mem_range.2 hi
  obtain ⟨hA, hframe⟩ := hholds i hi'
  obtain ⟨hB, hframe'⟩ := hholds' i hi'
  have hgroups := congrArg (fun f => f.2.2.2.2) (hframe'.trans hframe)
  have hmax := congrArg (fun f => (f.2.1, f.2.2.1, f.2.2.2.1)) (hframe'.trans hframe)
  refine ⟨mans' i, _, _, hB, ?_, ?_, congrArg Prod.fst hgroups, congrArg Prod.snd hgroups, hmax,
    rfl⟩
  · have hderef := hsame.deref (m.routerConnectionsMap i)
    rwa [deref, h.ofRouter.deref] at hderef
  · have hderef := hsame'.deref (m.routerTerminalConnectionsMap i)
    rwa [deref, h.ofRouterTerminals.deref] at hderef

/-- **What the managers are given**: each router its links and those to its terminals, each terminal
its injection links. -/
theorem addConnsToConnectionManagers_spec (h : Linked links m) {net : Network}
    (hports : ∀ t : ℕ, t < p.totalTerminals → (fromSrc m.injectionConns t).length ≤ p.numRails)
    (hadd : m.addConnsToConnectionManagers = some net) :
    ∃ conns, SamePorts m.routerConns conns ∧
      (∀ i : ℕ, i < p.totalRouters → Given m conns i (net.routers i)) ∧
      ∀ t : ℕ, t < p.totalTerminals → ∃ man, Injects (fromSrc m.injectionConns t) man ∧
        net.terminals t = man.solidifyConnections := by
  obtain ⟨conns, hsame, hrouters⟩ := addConnsToConnectionManagers_routers h hadd
  refine ⟨conns, hsame, hrouters, fun t ht => ?_⟩
  obtain ⟨r, -, hadd⟩ := Option.bind_eq_some_iff.1 hadd
  obtain ⟨r', -, hadd⟩ := Option.bind_eq_some_iff.1 hadd
  obtain ⟨⟨tmans, tconns⟩, h₃, hadd⟩ := Option.map_eq_some_iff.1 hadd
  subst hadd
  obtain ⟨-, hinjects⟩ := addConnsToAll_injects List.nodup_range (fun t _ => injects_new _ _ _ _ _)
    (fun t _ conn hconn => h.injection_type (mem_of_deref hconn)) (fun t ht => by
      rw [deref, h.ofTerminal.deref]
      exact hports t (List.mem_range.1 ht)) h₃
  have hinj := hinjects t (List.mem_range.2 ht)
  rw [deref, h.ofTerminal.deref] at hinj
  exact ⟨_, hinj, rfl⟩

/-! ### The connections of a router -/

section Router

variable {man : ConnectionManager} {A B : List Connection} {i : ℕ}

theorem get_router (h : Linked links m) (hA : SamePorts (fromSrc m.routerConns i) A)
    (hB : SamePorts (fromSrc m.terminalConns i) B) {ty : ConnectionType} (hty : ty ≠ .connTerminal)
    {conns : Std.ExtTreeMap ℤ (List Connection)} (hconns : By (destOf ty) (A ++ B) conns) (j : ℤ) :
    SamePorts ((deref m.routerConns (m.routerToRouterConnectionMap (i, j))).filter fun conn =>
      conn.connType = ty) (get conns j) := by
  have hnone : B.filter (fun conn => destOf ty conn = some j) = [] := by
    refine List.filter_eq_nil_iff.2 fun conn hconn => ?_
    have hterm : conn.connType = .connTerminal :=
      hB.forall (P := fun conn => conn.connType = .connTerminal) (fun _ => Iff.rfl)
        (fun conn hconn => (h.terminal_type (List.mem_filter.1 hconn).1).1) conn hconn
    simp [destOf, hterm, hty.symm]
  rw [hconns.get, List.filter_append, hnone, List.append_nil, deref, h.routerRouter.deref,
    List.filter_filter]
  have hfilter : (fromSrc m.routerConns i).filter (fun conn => destOf ty conn = some j) =
      m.routerConns.filter fun conn =>
      decide (conn.connType = ty) && decide (conn.ends = (↑i, j)) := by
    rw [fromSrc, List.filter_filter]
    refine List.filter_congr fun conn _ => ?_
    simp only [← Bool.decide_and]
    refine decide_eq_decide.2 ?_
    rw [destOf, Connection.ends, Prod.mk.injEq]
    split_ifs with hconn
    · simp [hconn, and_comm]
    · simp [hconn]
  exact hfilter ▸ hA.filter fun _ => rfl

theorem get_terminal (h : Linked links m) (hA : SamePorts (fromSrc m.routerConns i) A)
    (hB : SamePorts (fromSrc m.terminalConns i) B)
    {conns : Std.ExtTreeMap ℤ (List Connection)} (hconns : By (destOf .connTerminal) (A ++ B) conns)
    (t : ℤ) :
    SamePorts (deref m.terminalConns (m.routerToTerminalConnectionMap (i, t))) (get conns t) := by
  have hnone : A.filter (fun conn => destOf .connTerminal conn = some t) = [] := by
    refine List.filter_eq_nil_iff.2 fun conn hconn => ?_
    have hnot : conn.connType ≠ .connTerminal :=
      hA.forall (P := fun conn => conn.connType ≠ .connTerminal) (fun _ => Iff.rfl)
        (fun conn hconn => by
          obtain hty | hty := h.router_type (List.mem_filter.1 hconn).1 <;> simp [hty]) conn hconn
    simp [destOf, hnot]
  rw [hconns.get, List.filter_append, hnone, List.nil_append, deref, h.routerTerminal.deref]
  have hfilter : (fromSrc m.terminalConns i).filter
    (fun conn => destOf .connTerminal conn = some t) =
      m.terminalConns.filter fun conn => conn.ends = (↑i, t) := by
    rw [fromSrc, List.filter_filter]
    refine List.filter_congr fun conn hconn => ?_
    simp only [← Bool.decide_and]
    refine decide_eq_decide.2 ?_
    rw [destOf, if_pos (h.terminal_type hconn).1, Connection.ends, Prod.mk.injEq, Option.some.injEq]
    exact and_comm
  exact hfilter ▸ hB.filter fun _ => rfl

end Router

end CodesSim.NetMan
