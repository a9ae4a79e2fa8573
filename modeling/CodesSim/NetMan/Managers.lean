import CodesSim.NetMan.Basic

/-!
# Connection managers and their ports

What a connection manager holds after connections have been added to it.  `Holds A m` says that the
manager of a router has the connections `A`, in the order in which they were added: each map has
those of its type by their destination, the local ones have the ports from 0 on, the global ones and
those to terminals the ports behind, and the port map finds each connection.  `addConns_holds` and
`addConnsToAll_spec` follow the loops of the network manager.

A connection that is added gets a port, and nothing else in it changes (`Connection.noPort`).
-/

namespace CodesSim.NetMan

open Function Groups

variable {p : NetworkParam} {m m' : ConnectionManager} {conn conn' : Connection}
  {conns conns' A : List Connection} {ptrs : List ℕ} {port : ℤ}

/-! ### Connections without their port -/

/-- A connection but for its port. -/
def Connection.noPort (conn : Connection) : Connection := conn.setPort 0

/-- The destination of a connection of a type. -/
def destOf (ty : ConnectionType) (conn : Connection) : Option ℤ :=
  if conn.connType = ty then some conn.destGid else none

/-- Two lists with the same connections but for the ports. -/
def SamePorts (conns conns' : List Connection) : Prop :=
  conns'.map Connection.noPort = conns.map Connection.noPort

theorem SamePorts.refl (conns : List Connection) : SamePorts conns conns := rfl

section

variable (h : SamePorts conns conns')
include h

theorem SamePorts.trans {conns'' : List Connection}
    (h' : SamePorts conns' conns'') : SamePorts conns conns'' := Eq.trans h' h

theorem SamePorts.filter {P : Connection → Bool}
    (hP : ∀ conn, P conn.noPort = P conn) : SamePorts (conns.filter P) (conns'.filter P) := by
  have hcomp : P ∘ Connection.noPort = P := funext hP
  have hmap : ∀ l : List Connection, (l.filter P).map Connection.noPort =
      (l.map Connection.noPort).filter P := by
    intro l
    rw [List.filter_map, hcomp]
  rw [SamePorts, hmap, hmap, h]

theorem SamePorts.countP {P : Connection → Bool}
    (hP : ∀ conn, P conn.noPort = P conn) : conns'.countP P = conns.countP P := by
  have hcomp : P ∘ Connection.noPort = P := funext hP
  have hmap : ∀ l : List Connection, l.countP P = (l.map Connection.noPort).countP P := by
    intro l
    rw [List.countP_map, hcomp]
  rw [hmap conns', h, ← hmap conns]

theorem SamePorts.length : conns'.length = conns.length := by
  have hlen := congrArg List.length h
  simpa using hlen

theorem SamePorts.forall {P : Connection → Prop}
    (hP : ∀ conn, P conn.noPort ↔ P conn) (hall : ∀ conn ∈ conns, P conn) : ∀ conn ∈ conns',
    P conn := by
  intro conn hconn
  have hmem : conn.noPort ∈ conns.map Connection.noPort :=
    h ▸ List.mem_map_of_mem hconn
  obtain ⟨conn₀, h₀, heq⟩ := List.mem_map.1 hmem
  exact (hP conn).1 (heq ▸ (hP conn₀).2 (hall conn₀ h₀))

theorem SamePorts.deref (ptrs : List ℕ) : SamePorts (deref conns ptrs) (deref conns' ptrs) := by
  have hget : ∀ ptr : ℕ,
    conns'[ptr]?.map Connection.noPort = conns[ptr]?.map Connection.noPort := by
    intro ptr
    rw [← List.getElem?_map, ← List.getElem?_map, h]
  rw [SamePorts, NetMan.deref, NetMan.deref, List.map_filterMap, List.map_filterMap]
  exact List.filterMap_congr fun (ptr : ℕ) _ => hget ptr

end

theorem samePorts_modify (conns : List Connection) (ptr : ℕ) (port : ℤ) :
    SamePorts conns (conns.modify ptr (·.setPort port)) := by
  rw [SamePorts]
  refine List.ext_getElem? fun i => ?_
  rw [List.getElem?_map, List.getElem?_map, List.getElem?_modify]
  cases conns[i]? with
  | none => rfl
  | some conn => by_cases hi : ptr = i <;> simp [hi, Connection.noPort, Connection.setPort]

/-! ### The manager of a router -/

/-- The manager of a router has connections, in the order in which they were added. -/
structure Holds (A : List Connection) (m : ConnectionManager) : Prop where
  manType : m.manType = .manRouter
  noInjection : ∀ conn ∈ A, conn.connType ≠ .connInjection
  intra : By (fun conn => if conn.connType = .connLocal then some conn.destLid else none) A
    m.intraGroupConnections
  intraGID : By (destOf .connLocal) A m.intraGroupConnectionsGID
  global : By (destOf .connGlobal) A m.globalConnections
  terminal : By (destOf .connTerminal) A m.terminalConnections
  injection : m.injectionConnections = ∅
  localPorts : (A.filter fun conn => conn.connType = .connLocal).map Connection.port =
    (List.range m.usedIntraPorts).map fun k : ℕ => (k : ℤ)
  globalPorts : (A.filter fun conn => conn.connType = .connGlobal).map Connection.port =
    (List.range m.usedInterPorts).map fun k : ℕ => (m.maxIntraPorts : ℤ) + k
  terminalPorts : (A.filter fun conn => conn.connType = .connTerminal).map Connection.port =
    (List.range m.usedTerminalPorts).map fun k : ℕ => (m.maxIntraPorts : ℤ) + m.maxInterPorts + k
  localLe : m.usedIntraPorts ≤ m.maxIntraPorts
  globalLe : m.usedInterPorts ≤ m.maxInterPorts
  terminalLe : m.usedTerminalPorts ≤ m.maxTerminalPorts
  ports : ∀ conn ∈ A, m.portMap[conn.port]? = some conn
  onPorts : ∀ port conn, m.portMap[port]? = some conn → conn ∈ A ∧ conn.port = port

theorem holds_new (g : ℤ) (a b c : ℕ) : Holds [] (.new .manRouter g a b c 0) where
  manType := rfl
  noInjection := by simp
  intra := By.nil
  intraGID := By.nil
  global := By.nil
  terminal := By.nil
  injection := rfl
  localPorts := rfl
  globalPorts := rfl
  terminalPorts := rfl
  localLe := Nat.zero_le _
  globalLe := Nat.zero_le _
  terminalLe := Nat.zero_le _
  ports := by simp
  onPorts port conn h := by simp [ConnectionManager.new] at h

theorem Holds.port_cases (h : Holds A m) (hconn : conn ∈ A) :
    (conn.connType = .connLocal ∧ ∃ k < m.usedIntraPorts, conn.port = k) ∨
    (conn.connType = .connGlobal ∧ ∃ k < m.usedInterPorts, conn.port = m.maxIntraPorts + k) ∨
    (conn.connType = .connTerminal ∧
      ∃ k < m.usedTerminalPorts, conn.port = m.maxIntraPorts + m.maxInterPorts + k) := by
  have hmem : ∀ ty, conn.connType = ty →
      conn.port ∈ (A.filter fun conn => conn.connType = ty).map Connection.port := fun ty hty =>
    List.mem_map_of_mem (List.mem_filter.2 ⟨hconn, by simpa using hty⟩)
  cases hty : conn.connType with
  | connLocal =>
    have hport := hmem _ hty
    rw [h.localPorts] at hport
    obtain ⟨k, hk, heq⟩ := List.mem_map.1 hport
    exact .inl ⟨rfl, k, List.mem_range.1 hk, heq.symm⟩
  | connGlobal =>
    have hport := hmem _ hty
    rw [h.globalPorts] at hport
    obtain ⟨k, hk, heq⟩ := List.mem_map.1 hport
    exact .inr (.inl ⟨rfl, k, List.mem_range.1 hk, heq.symm⟩)
  | connTerminal =>
    have hport := hmem _ hty
    rw [h.terminalPorts] at hport
    obtain ⟨k, hk, heq⟩ := List.mem_map.1 hport
    exact .inr (.inr ⟨rfl, k, List.mem_range.1 hk, heq.symm⟩)
  | connInjection => exact absurd hty (h.noInjection conn hconn)

theorem ports_insert (conn' : Connection) {portMap : Std.ExtTreeMap ℤ Connection}
    (hports : ∀ conn ∈ A, portMap[conn.port]? = some conn)
    (hon : ∀ port conn, portMap[port]? = some conn → conn ∈ A ∧ conn.port = port)
    (hnew : ∀ conn ∈ A, conn.port ≠ conn'.port) :
    (∀ conn ∈ A ++ [conn'], (portMap.insert conn'.port conn')[conn.port]? = some conn) ∧
      ∀ port conn, (portMap.insert conn'.port conn')[port]? = some conn →
        conn ∈ A ++ [conn'] ∧ conn.port = port := by
  constructor
  · intro conn hconn
    rw [getElem?_insert]
    obtain hconn | hconn := List.mem_append.1 hconn
    · rw [if_neg (hnew conn hconn).symm, hports conn hconn]
    · rw [List.mem_singleton.1 hconn, if_pos rfl]
  · intro port conn hport
    rw [getElem?_insert] at hport
    split_ifs at hport with heq
    · cases hport
      exact ⟨by simp, heq⟩
    · obtain ⟨hmem, hc⟩ := hon port conn hport
      exact ⟨List.mem_append_left _ hmem, hc⟩

/-- What `add_connection` leaves alone. -/
def ConnectionManager.frame (m : ConnectionManager) :
    ℤ × ℕ × ℕ × ℕ × Std.ExtTreeMap ℤ (List ℤ) × Std.ExtTreeMap ℤ (List ℤ) :=
  (m.sourceGroup, m.maxIntraPorts, m.maxInterPorts, m.maxTerminalPorts, m.groupGroupConnectionMap,
    m.groupGroupConnectionMapNofail)

theorem filter_append_type (A : List Connection) (conn : Connection) (ty : ConnectionType) :
    (A ++ [conn]).filter (fun conn => conn.connType = ty) =
      A.filter (fun conn => conn.connType = ty) ++ if conn.connType = ty then [conn] else [] := by
  rw [List.filter_append]
  by_cases hty : conn.connType = ty <;> simp [hty]

theorem ports_skip {ty : ConnectionType} {ports : List ℤ}
    (h : (A.filter fun conn => conn.connType = ty).map Connection.port = ports)
    (hty : conn.connType ≠ ty) :
    ((A ++ [conn]).filter fun conn => conn.connType = ty).map Connection.port = ports := by
  rw [filter_append_type, if_neg hty, List.append_nil, h]

theorem noInjection_append (hA : ∀ conn ∈ A, conn.connType ≠ .connInjection)
    (hconn : conn'.connType ≠ .connInjection) :
    ∀ conn ∈ A ++ [conn'], conn.connType ≠ .connInjection := by
  intro conn hmem
  obtain hmem | hmem := List.mem_append.1 hmem
  · exact hA conn hmem
  · rwa [List.mem_singleton.1 hmem]

theorem destOf_self {ty : ConnectionType} (h : conn.connType = ty) :
    destOf ty conn = some conn.destGid :=
  if_pos h

theorem destOf_of_ne {ty : ConnectionType} (h : conn.connType ≠ ty) :
    destOf ty conn = none := if_neg h

theorem Holds.addLocal (h : Holds A m) (hty : conn.connType = .connLocal)
    (hport : conn.port = m.usedIntraPorts) (hlt : m.usedIntraPorts < m.maxIntraPorts) :
    Holds (A ++ [conn]) ((m.addLocal conn).register conn) := by
  obtain ⟨hports, hon⟩ := ports_insert conn h.ports h.onPorts fun conn₀ h₀ => by
    obtain ⟨-, k, hk, hp⟩ | ⟨-, k, hk, hp⟩ | ⟨-, k, hk, hp⟩ := h.port_cases h₀ <;> omega
  exact {
    manType := h.manType
    noInjection := noInjection_append h.noInjection (by simp [hty])
    intra := h.intra.push (by simp [hty])
    intraGID := h.intraGID.push (destOf_self hty)
    global := h.global.skip (destOf_of_ne (by simp [hty]))
    terminal := h.terminal.skip (destOf_of_ne (by simp [hty]))
    injection := h.injection
    localPorts := by
      rw [filter_append_type, if_pos hty, List.map_append, h.localPorts]
      simp [ConnectionManager.addLocal, ConnectionManager.register, List.range_succ, hport]
    globalPorts := ports_skip h.globalPorts (by simp [hty])
    terminalPorts := ports_skip h.terminalPorts (by simp [hty])
    localLe := hlt
    globalLe := h.globalLe
    terminalLe := h.terminalLe
    ports := hports
    onPorts := hon }

theorem Holds.addGlobal (h : Holds A m) (hty : conn.connType = .connGlobal)
    (hport : conn.port = m.maxIntraPorts + m.usedInterPorts)
    (hlt : m.usedInterPorts < m.maxInterPorts) :
    Holds (A ++ [conn]) ((m.addGlobal conn).register conn) := by
  obtain ⟨hports, hon⟩ := ports_insert conn h.ports h.onPorts fun conn₀ h₀ => by
    have hle := h.localLe
    obtain ⟨-, k, hk, hp⟩ | ⟨-, k, hk, hp⟩ | ⟨-, k, hk, hp⟩ := h.port_cases h₀ <;> omega
  exact {
    manType := h.manType
    noInjection := noInjection_append h.noInjection (by simp [hty])
    intra := h.intra.skip (by simp [hty])
    intraGID := h.intraGID.skip (destOf_of_ne (by simp [hty]))
    global := h.global.push (destOf_self hty)
    terminal := h.terminal.skip (destOf_of_ne (by simp [hty]))
    injection := h.injection
    localPorts := ports_skip h.localPorts (by simp [hty])
    globalPorts := by
      rw [filter_append_type, if_pos hty, List.map_append, h.globalPorts]
      simp [ConnectionManager.addGlobal, ConnectionManager.register, List.range_succ, hport]
    terminalPorts := ports_skip h.terminalPorts (by simp [hty])
    localLe := h.localLe
    globalLe := hlt
    terminalLe := h.terminalLe
    ports := hports
    onPorts := hon }

theorem Holds.addTerminal (h : Holds A m) (hty : conn.connType = .connTerminal)
    (hport : conn.port = m.maxIntraPorts + m.maxInterPorts + m.usedTerminalPorts)
    (hlt : m.usedTerminalPorts < m.maxTerminalPorts) :
    Holds (A ++ [conn]) ((m.addTerminal conn).register conn) := by
  obtain ⟨hports, hon⟩ := ports_insert conn h.ports h.onPorts fun conn₀ h₀ => by
    have hle := h.localLe
    have hle' := h.globalLe
    obtain ⟨-, k, hk, hp⟩ | ⟨-, k, hk, hp⟩ | ⟨-, k, hk, hp⟩ := h.port_cases h₀ <;> omega
  exact {
    manType := h.manType
    noInjection := noInjection_append h.noInjection (by simp [hty])
    intra := h.intra.skip (by simp [hty])
    intraGID := h.intraGID.skip (destOf_of_ne (by simp [hty]))
    global := h.global.skip (destOf_of_ne (by simp [hty]))
    terminal := h.terminal.push (destOf_self hty)
    injection := h.injection
    localPorts := ports_skip h.localPorts (by simp [hty])
    globalPorts := ports_skip h.globalPorts (by simp [hty])
    terminalPorts := by
      rw [filter_append_type, if_pos hty, List.map_append, h.terminalPorts]
      simp [ConnectionManager.addTerminal, ConnectionManager.register, List.range_succ, hport]
    localLe := h.localLe
    globalLe := h.globalLe
    terminalLe := hlt
    ports := hports
    onPorts := hon }

/-- **A connection is added.** -/
theorem Holds.addConnection (h : Holds A m) (hty : conn.connType ≠ .connInjection)
    (hgroup : conn.connType = .connTerminal → conn.destGroupId = m.sourceGroup)
    (hadd : m.addConnection conn = some (m', port)) :
    Holds (A ++ [conn.setPort port]) m' ∧ m'.frame = m.frame := by
  obtain ⟨⟨m₁, conn₁⟩, hplace, heq⟩ := Option.map_eq_some_iff.1 hadd
  cases heq
  have hman : ¬ m.manType = .manTerminal := by
    rw [h.manType]
    exact ManagerType.noConfusion
  rw [ConnectionManager.place] at hplace
  cases hconn : conn.connType with
  | connLocal =>
    simp only [hconn, if_neg hman] at hplace
    split_ifs at hplace with hlt
    cases hplace
    exact ⟨h.addLocal hconn rfl hlt, rfl⟩
  | connGlobal =>
    simp only [hconn, if_neg hman] at hplace
    split_ifs at hplace with hlt
    cases hplace
    exact ⟨h.addGlobal hconn rfl hlt, rfl⟩
  | connTerminal =>
    simp only [hconn, if_neg hman] at hplace
    split_ifs at hplace with hlt
    have hsame : (conn.setPort
      (m.maxIntraPorts + m.maxInterPorts + m.usedTerminalPorts)).setDestGroupId
        m.sourceGroup = conn.setPort (m.maxIntraPorts + m.maxInterPorts + m.usedTerminalPorts) := by
      rw [← hgroup hconn]
      rfl
    rw [hsame] at hplace
    cases hplace
    exact ⟨h.addTerminal hconn rfl hlt, rfl⟩
  | connInjection => exact absurd hconn hty

theorem deref_cons (conns : List Connection) (ptr : ℕ) (ptrs : List ℕ) :
    deref conns (ptr :: ptrs) = conns[ptr]?.toList ++ deref conns ptrs := by
  rw [deref, List.filterMap_cons]
  cases conns[ptr]? <;> rfl

theorem deref_modify_of_notMem {f : Connection → Connection} {ptr : ℕ} (h : ptr ∉ ptrs) :
    deref (conns.modify ptr f) ptrs = deref conns ptrs := by
  refine List.filterMap_congr fun (i : ℕ) hi => ?_
  have hne : ptr ≠ i := fun he => h (he ▸ hi)
  rw [List.getElem?_modify]
  simp [hne]

/-- **Connections are added** to the manager of a router. -/
theorem addConns_holds (h : Holds A m) (hnodup : ptrs.Nodup)
    (hty : ∀ conn ∈ deref conns ptrs, conn.connType ≠ .connInjection ∧
      (conn.connType = .connTerminal → conn.destGroupId = m.sourceGroup))
    (hadd : addConns m conns ptrs = some (m', conns')) :
    Holds (A ++ deref conns' ptrs) m' ∧ m'.frame = m.frame ∧ SamePorts conns conns' ∧
      ∀ ptr ∉ ptrs, conns'[ptr]? = conns[ptr]? := by
  induction ptrs generalizing m conns A with
  | nil =>
    cases hadd
    rw [deref, List.filterMap_nil, List.append_nil]
    exact ⟨h, rfl, SamePorts.refl _, fun _ _ => rfl⟩
  | cons ptr ptrs ih =>
    obtain ⟨hnot, hnodup'⟩ := List.nodup_cons.1 hnodup
    rw [addConns] at hadd
    cases hconn : conns[ptr]? with
    | none => simp [hconn] at hadd
    | some conn =>
      simp only [hconn] at hadd
      obtain ⟨⟨m₁, port⟩, h₁, hrest⟩ := Option.bind_eq_some_iff.1 hadd
      have hmem : ∀ conn₀ ∈ deref conns ptrs, conn₀ ∈ deref conns (ptr :: ptrs) :=
        fun conn₀ h₀ => by
        rw [deref_cons]
        exact List.mem_append_right _ h₀
      obtain ⟨hty₁, hgroup₁⟩ := hty conn (by rw [deref_cons, hconn]; simp)
      obtain ⟨hholds, hframe⟩ := h.addConnection hty₁ hgroup₁ h₁
      have hsource : m₁.sourceGroup = m.sourceGroup := congrArg Prod.fst hframe
      obtain ⟨hholds', hframe', hsame, hother⟩ := ih hholds hnodup' (fun conn₀ h₀ => by
        rw [deref_modify_of_notMem hnot] at h₀
        rw [hsource]
        exact hty conn₀ (hmem conn₀ h₀)) hrest
      have hget : conns'[ptr]? = some (conn.setPort port) := by
        rw [hother ptr hnot, List.getElem?_modify, hconn]
        simp
      refine ⟨?_, hframe'.trans hframe, (samePorts_modify conns ptr port).trans hsame, ?_⟩
      · rw [deref_cons, hget, ← List.append_assoc]
        exact hholds'
      · intro i hi
        have hne : ptr ≠ i := fun he => hi (he ▸ List.mem_cons_self)
        rw [hother i fun hmem => hi (List.mem_cons_of_mem _ hmem), List.getElem?_modify]
        simp [hne]

variable {mans mans' : ℕ → ConnectionManager}

/-- The loop over the managers of the routers: each has what its pointers point to in the end. -/
theorem addConnsToAll_spec {index : ℤ → List ℕ} {is : List ℕ}
    {A : ℕ → List Connection} (his : is.Nodup) (hnodup : ∀ i : ℕ, (index i).Nodup)
    (hdisjoint : ∀ i j : ℕ, i ≠ j → ∀ ptr ∈ index i, ptr ∉ index j)
    (hholds : ∀ i ∈ is, Holds (A i) (mans i))
    (hty : ∀ i ∈ is, ∀ conn ∈ deref conns (index i), conn.connType ≠ .connInjection ∧
      (conn.connType = .connTerminal → conn.destGroupId = (mans i).sourceGroup))
    (hadd : addConnsToAll index is mans conns = some (mans', conns')) :
    SamePorts conns conns' ∧ (∀ i : ℕ, i ∉ is → mans' i = mans i) ∧
      (∀ ptr, (∀ i ∈ is, ptr ∉ index i) → conns'[ptr]? = conns[ptr]?) ∧
      ∀ i ∈ is, Holds (A i ++ deref conns' (index i)) (mans' i) ∧
      (mans' i).frame = (mans i).frame := by
  induction is generalizing mans conns with
  | nil =>
    cases hadd
    exact ⟨SamePorts.refl _, fun _ _ => rfl, fun _ _ => rfl, fun i hi => absurd hi List.not_mem_nil⟩
  | cons i is ih =>
    obtain ⟨hnot, his'⟩ := List.nodup_cons.1 his
    obtain ⟨⟨m₁, conns₁⟩, h₁, hrest⟩ := Option.bind_eq_some_iff.1 hadd
    obtain ⟨hhead, hframe, hsame, hother⟩ := addConns_holds (hholds i List.mem_cons_self) (hnodup i)
      (hty i List.mem_cons_self) h₁
    have hupdate : ∀ j ∈ is, update mans i m₁ j = mans j := fun j hj =>
      update_of_ne (fun he : j = i => hnot (he ▸ hj)) ..
    have hsamederef : ∀ j ∈ is, deref conns₁ (index j) = deref conns (index j) := by
      intro j hj
      refine List.filterMap_congr fun (ptr : ℕ) hptr => hother ptr ?_
      exact hdisjoint j i (fun he => hnot (he ▸ hj)) ptr hptr
    obtain ⟨hsame', hkeep, hother', htail⟩ := ih his' (fun j hj => by
        rw [hupdate j hj]
        exact hholds j (List.mem_cons_of_mem _ hj)) (fun j hj conn hconn => by
        rw [hsamederef j hj] at hconn
        rw [hupdate j hj]
        exact hty j (List.mem_cons_of_mem _ hj) conn hconn) hrest
    refine ⟨hsame.trans hsame', fun j hj => ?_, fun ptr hptr => ?_, fun j hj => ?_⟩
    · rw [hkeep j fun hmem => hj (List.mem_cons_of_mem _ hmem)]
      exact update_of_ne (fun he : j = i => hj (he ▸ List.mem_cons_self)) ..
    · rw [hother' ptr fun j hj => hptr j (List.mem_cons_of_mem _ hj),
        hother ptr (hptr i List.mem_cons_self)]
    · obtain rfl | hj := List.mem_cons.1 hj
      · have hderef : deref conns' (index j) = deref conns₁ (index j) := by
          refine List.filterMap_congr fun (ptr : ℕ) hptr => hother' ptr fun k hk => ?_
          exact hdisjoint j k (fun he => hnot (he ▸ hk)) ptr hptr
        rw [hkeep j hnot, update_self, hderef]
        exact ⟨hhead, hframe⟩
      · obtain ⟨h, hf⟩ := htail j hj
        rw [hupdate j hj] at hf
        exact ⟨h, hf⟩

/-! ### The manager of a terminal -/

/-- The manager of a terminal has injection connections, in the order in which they were added. -/
structure Injects (A : List Connection) (m : ConnectionManager) : Prop where
  injection : By (fun conn => some conn.destGid) A m.injectionConnections
  used : m.usedInjectionPorts = A.length
  intra : m.intraGroupConnections = ∅
  intraGID : m.intraGroupConnectionsGID = ∅
  global : m.globalConnections = ∅
  terminal : m.terminalConnections = ∅
  routed : m.routedConnectionsToGroupMap = ∅

theorem injects_new (g : ℤ) (a b c d : ℕ) : Injects [] (.new .manTerminal g a b c d) :=
  ⟨By.nil, rfl, rfl, rfl, rfl, rfl, rfl⟩

theorem Injects.addConnection (h : Injects A m) (hty : conn.connType = .connInjection)
    (hlt : A.length < m.maxInjectionPorts) (hadd : m.addConnection conn = some (m', port)) :
    Injects (A ++ [conn]) m' ∧ m'.maxInjectionPorts = m.maxInjectionPorts ∧ port = conn.port := by
  have hused : m.usedInjectionPorts < m.maxInjectionPorts := by
    rw [h.used]
    exact hlt
  simp only [ConnectionManager.addConnection, ConnectionManager.place, hty, if_pos hused,
    Option.map_some] at hadd
  cases hadd
  refine ⟨⟨h.injection.push rfl, ?_, h.intra, h.intraGID, h.global, h.terminal, h.routed⟩, rfl, rfl⟩
  rw [List.length_append, ← h.used]
  rfl

theorem modify_setPort_self {ptr : ℕ} (hconn : conns[ptr]? = some conn) :
    conns.modify ptr (·.setPort conn.port) = conns := by
  refine List.ext_getElem? fun i => ?_
  rw [List.getElem?_modify]
  by_cases hi : ptr = i
  · subst hi
    rw [hconn]
    simp [Connection.setPort]
  · simp [hi]

theorem addConns_injects (h : Injects A m)
    (hty : ∀ conn ∈ deref conns ptrs, conn.connType = .connInjection)
    (hlen : A.length + (deref conns ptrs).length ≤ m.maxInjectionPorts)
    (hadd : addConns m conns ptrs = some (m', conns')) :
    Injects (A ++ deref conns ptrs) m' ∧ conns' = conns := by
  induction ptrs generalizing m A with
  | nil =>
    cases hadd
    rw [deref, List.filterMap_nil, List.append_nil]
    exact ⟨h, rfl⟩
  | cons ptr ptrs ih =>
    rw [addConns] at hadd
    cases hconn : conns[ptr]? with
    | none => simp [hconn] at hadd
    | some conn =>
      simp only [hconn] at hadd
      obtain ⟨⟨m₁, port⟩, h₁, hrest⟩ := Option.bind_eq_some_iff.1 hadd
      have hderef : deref conns (ptr :: ptrs) = conn :: deref conns ptrs := by
        rw [deref_cons, hconn]
        rfl
      rw [hderef] at hty hlen ⊢
      rw [List.length_cons] at hlen
      obtain ⟨hinj, hmax, rfl⟩ := h.addConnection (hty conn List.mem_cons_self) (by omega) h₁
      simp only [modify_setPort_self hconn] at hrest
      have hrec := ih hinj (fun conn₀ h₀ => hty conn₀ (List.mem_cons_of_mem _ h₀)) (by
        rw [List.length_append, List.length_singleton]
        omega) hrest
      rwa [List.append_assoc] at hrec

theorem addConnsToAll_injects {index : ℤ → List ℕ} {is : List ℕ}
    (his : is.Nodup) (hmans : ∀ i ∈ is, Injects [] (mans i))
    (hty : ∀ i ∈ is, ∀ conn ∈ deref conns (index i), conn.connType = .connInjection)
    (hlen : ∀ i ∈ is, (deref conns (index i)).length ≤ (mans i).maxInjectionPorts)
    (hadd : addConnsToAll index is mans conns = some (mans', conns')) :
    (∀ i : ℕ, i ∉ is → mans' i = mans i) ∧ ∀ i ∈ is, Injects (deref conns (index i)) (mans' i) := by
  induction is generalizing mans with
  | nil =>
    cases hadd
    exact ⟨fun _ _ => rfl, fun i hi => absurd hi List.not_mem_nil⟩
  | cons i is ih =>
    obtain ⟨hnot, his'⟩ := List.nodup_cons.1 his
    obtain ⟨⟨m₁, conns₁⟩, h₁, hrest⟩ := Option.bind_eq_some_iff.1 hadd
    obtain ⟨hhead, rfl⟩ :=
      addConns_injects (hmans i List.mem_cons_self) (hty i List.mem_cons_self) (by
      rw [List.length_nil, Nat.zero_add]
      exact hlen i List.mem_cons_self) h₁
    have hupdate : ∀ j ∈ is, update mans i m₁ j = mans j := fun j hj =>
      update_of_ne (fun he : j = i => hnot (he ▸ hj)) ..
    obtain ⟨hkeep, htail⟩ := ih his' (fun j hj => by
        rw [hupdate j hj]
        exact hmans j (List.mem_cons_of_mem _ hj)) (fun j hj => hty j (List.mem_cons_of_mem _ hj))
      (fun j hj => by
        rw [hupdate j hj]
        exact hlen j (List.mem_cons_of_mem _ hj)) hrest
    refine ⟨fun j hj => ?_, fun j hj => ?_⟩
    · rw [hkeep j fun hmem => hj (List.mem_cons_of_mem _ hmem)]
      exact update_of_ne (fun he : j = i => hj (he ▸ List.mem_cons_self)) ..
    · obtain rfl | hj := List.mem_cons.1 hj
      · rw [hkeep j hnot, update_self]
        exact hhead
      · exact htail j hj

end CodesSim.NetMan
