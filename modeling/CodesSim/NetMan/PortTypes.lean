import CodesSim.NetMan.Representation

/-!
# The types of the ports

Which ports of a router have a connection, and of which type (`getPortType_eq`): the local links
have the ports from 0 on, the global links those behind the room for local ones, and the links to
terminals those behind the room for both, each type in the order of its links and without a gap.
-/

namespace CodesSim.NetMan

open Groups

variable {p : NetworkParam} {m : NetworkManager p} {links : List Link} {failures : List LinkInfo}
  {A B : List Connection} {i : ℕ}

/-- `get_port_type`; a port without a connection has none. -/
def SolidManager.getPortType (m : SolidManager) (port : ℤ) : Option ConnectionType :=
  m.portMap[port]?.map Connection.connType

/-- The number of links of a type that a router has. -/
def numLinks (links : List Link) (ty : ConnectionType) (i : ℤ) : ℕ :=
  links.countP fun l => l.connType = ty ∧ l.srcGid = i

/-- The type of a port of a router with given links. -/
def typeOfPort (p : NetworkParam) (links : List Link) (i port : ℤ) : Option ConnectionType :=
  if 0 ≤ port ∧ port < numLinks links .connLocal i then some .connLocal
  else if p.numLcPr ≤ port ∧ port < p.numLcPr + numLinks links .connGlobal i then some .connGlobal
  else if p.numLcPr + p.numGcPr ≤ port ∧
      port < p.numLcPr + p.numGcPr + numLinks links .connTerminal i then some .connTerminal
  else none

theorem length_ofType (h : Linked links m) (hA : SamePorts (fromSrc m.routerConns i) A)
    (hB : SamePorts (fromSrc m.terminalConns i) B) (ty : ConnectionType) :
    ((A ++ B).filter fun conn => conn.connType = ty).length = numLinks links ty i := by
  have hrouter := length_filter_healthy (P := fun conn => conn.connType = ty ∧ conn.srcGid = i)
    h.routers fun _ => rfl
  have hterminal := length_filter_healthy (P := fun conn => conn.connType = ty ∧ conn.srcGid = i)
    h.terminals fun _ => rfl
  have hcount : ∀ (conns : List Connection),
      (fromSrc conns i).countP (fun conn => conn.connType = ty) =
        (conns.filter fun conn => conn.connType = ty ∧ conn.srcGid = (i : ℤ)).length := by
    intro conns
    rw [fromSrc, List.countP_filter, ← List.countP_eq_length_filter]
    refine List.countP_congr fun conn _ => ?_
    simp
  have hsplit := List.countP_eq_countP_filter_add links
    (fun l => l.connType = ty ∧ l.srcGid = (i : ℤ)) fun l => l.connType ≠ .connTerminal
  have hnot : (links.filter fun l => !decide (l.connType ≠ .connTerminal)) = terminalLinks links :=
    List.filter_congr fun l _ => by simp
  rw [hnot] at hsplit
  rw [← List.countP_eq_length_filter, List.countP_append, hA.countP fun _ => rfl,
    hB.countP fun _ => rfl, hcount, hcount, hrouter, hterminal, numLinks, hsplit,
    ← List.countP_eq_length_filter, ← List.countP_eq_length_filter]
  rfl

theorem Holds.getPortType {man : SolidManager} (h : Holds A man.toConnectionManager) (port : ℤ) :
    man.getPortType port =
      if 0 ≤ port ∧ port < man.usedIntraPorts then some .connLocal
      else if man.maxIntraPorts ≤ port ∧ port < man.maxIntraPorts + man.usedInterPorts then
        some .connGlobal
      else if man.maxIntraPorts + man.maxInterPorts ≤ port ∧
          port < man.maxIntraPorts + man.maxInterPorts + man.usedTerminalPorts then
        some .connTerminal
      else none := by
  have hle := h.localLe
  have hle' := h.globalLe
  cases hport : man.portMap[port]? with
  | some conn =>
    obtain ⟨hconn, rfl⟩ := h.onPorts port conn hport
    rw [SolidManager.getPortType, hport, Option.map_some]
    obtain ⟨hty, k, hk, heq⟩ | ⟨hty, k, hk, heq⟩ | ⟨hty, k, hk, heq⟩ := h.port_cases hconn
    · rw [if_pos (by omega), hty]
    · rw [if_neg (by omega), if_pos (by omega), hty]
    · rw [if_neg (by omega), if_neg (by omega), if_pos (by omega), hty]
  | none =>
    have hfree : ∀ ty, port ∉ (A.filter fun conn => conn.connType = ty).map Connection.port := by
      intro ty hmem
      obtain ⟨conn, hconn, rfl⟩ := List.mem_map.1 hmem
      have hsome := h.ports conn (List.mem_filter.1 hconn).1
      rw [hport] at hsome
      cases hsome
    have hlocal := hfree .connLocal
    have hglobal := hfree .connGlobal
    have hterminal := hfree .connTerminal
    rw [h.localPorts] at hlocal
    rw [h.globalPorts] at hglobal
    rw [h.terminalPorts] at hterminal
    rw [SolidManager.getPortType, hport, if_neg, if_neg, if_neg, Option.map_none]
    · rintro ⟨h1, h2⟩
      exact hterminal (List.mem_map.2 ⟨(port - man.maxIntraPorts - man.maxInterPorts).toNat,
        List.mem_range.2 (by omega), by omega⟩)
    · rintro ⟨h1, h2⟩
      exact hglobal (List.mem_map.2 ⟨(port - man.maxIntraPorts).toNat, List.mem_range.2 (by omega),
        by omega⟩)
    · rintro ⟨h1, h2⟩
      exact hlocal (List.mem_map.2 ⟨port.toNat, List.mem_range.2 (by omega), by omega⟩)

/-- **The types of the ports of a router.** -/
theorem getPortType_eq {enabled : Bool} {net : Network}
    (hports : ∀ t : ℕ, t < p.totalTerminals →
      links.countP (fun l => l.connType = .connTerminal ∧ l.destGid = (t : ℤ)) ≤ p.numRails)
    (hnet : solidify p enabled links failures = some net) (hi : i < p.totalRouters) :
    (∀ port, (net.routers i).getPortType port = typeOfPort p links i port) ∧
      numLinks links .connLocal i ≤ p.numLcPr ∧ numLinks links .connGlobal i ≤ p.numGcPr ∧
      numLinks links .connTerminal i ≤ p.numCnPr := by
  obtain ⟨m, h, -, hadd⟩ := solidify_eq_some hnet
  obtain ⟨conns, hconns, hrouters, -⟩ := addConnsToConnectionManagers_spec h
    (fun t ht => length_injections h t ▸ hports t ht) hadd
  obtain ⟨man, A, B, hman, hA, hB, -, -, hmax, hrouter⟩ := hrouters i hi
  have hholds : Holds (A ++ B) (net.routers i).toConnectionManager := hrouter ▸ hman.told _ _
  have hmax' : ((net.routers i).maxIntraPorts, (net.routers i).maxInterPorts,
      (net.routers i).maxTerminalPorts) = (p.numLcPr, p.numGcPr, p.numCnPr) := by
    obtain ⟨full, nofail, heq⟩ := groupGroup_frame (man.setRoutedConnectionsToGroups
      ((m.setRouterConns conns).routedToGroups i)) (m.setRouterConns conns).groupGroups
    rw [hrouter, ← hmax, heq]
    rfl
  obtain ⟨hlc, hrest⟩ := Prod.mk.inj hmax'
  obtain ⟨hgc, hcn⟩ := Prod.mk.inj hrest
  have hlocal := congrArg List.length hholds.localPorts
  have hglobal := congrArg List.length hholds.globalPorts
  have hterminal := congrArg List.length hholds.terminalPorts
  rw [List.length_map, List.length_map, List.length_range, length_ofType h hA hB] at hlocal
  rw [List.length_map, List.length_map, List.length_range, length_ofType h hA hB] at hglobal
  rw [List.length_map, List.length_map, List.length_range, length_ofType h hA hB] at hterminal
  refine ⟨fun port => ?_, ?_, ?_, ?_⟩
  · rw [hholds.getPortType, hlc, hgc, ← hlocal, ← hglobal, ← hterminal, typeOfPort]
  · rw [hlocal, ← hlc]
    exact hholds.localLe
  · rw [hglobal, ← hgc]
    exact hholds.globalLe
  · rw [hterminal, ← hcn]
    exact hholds.terminalLe

end CodesSim.NetMan
