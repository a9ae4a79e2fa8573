import CodesSim.NetMan.NextHops
import Mathlib.Data.Set.Finite.Basic

/-!
# Who is connected to whom

The questions a router is asked about its connections (`is_connected_to_by_type`,
`is_any_connection_to`, `get_accessible_group_ids`).  Routers and terminals are numbered apart, and
the connections of each type are in a map by these numbers.

* `is_connected_to_by_type` does not look at the type: it looks for the number in all three maps.
* `is_any_connection_to` looks for the number in the group as well, in the same maps.
* A group counts as accessible over a router of the own group if the number of the router is found.

`connectivity_iff` says for which links the answers are right: those for a type for all numbers only
if there is a link of the type beside every other one, so all of them only where there is no link.
-/

namespace CodesSim.NetMan

open Groups

namespace SolidManager

variable (m : SolidManager)

/-- `is_connected_to_by_type`; the type is not looked at. -/
def isConnectedToByType (destId : ℤ) (_ : ConnectionType) (includeFailed : Bool) : Bool :=
  if includeFailed then
    destId ∈ m.intraGroupConnectionsGID || destId ∈ m.globalConnections ||
      destId ∈ m.terminalConnections
  else
    destId ∈ m.intraGroupConnectionsGIDNofail || destId ∈ m.globalConnectionsNofail ||
      destId ∈ m.terminalConnectionsNofail

/-- `is_any_connection_to`. -/
def isAnyConnectionTo (p : NetworkParam) (destGlobalId : ℤ) (includeFailed : Bool) : Bool :=
  let localId := p.localId destGlobalId
  m.isConnectedToByType localId .connLocal includeFailed ||
    m.isConnectedToByType destGlobalId .connGlobal includeFailed ||
    m.isConnectedToByType destGlobalId .connTerminal includeFailed ||
    m.isConnectedToByType destGlobalId .connInjection includeFailed

/-- `get_accessible_group_ids`. -/
def getAccessibleGroupIds : List ℤ := m.accessibleGroupIdsNofail

end SolidManager

variable {p : NetworkParam} {m : NetworkManager p} {links : List Link} {failures : List LinkInfo}

/-! ### Links -/

/-- The links from a router to a terminal that work. -/
def workingToTerminal (links : List Link) (failures : List LinkInfo) (i t : ℤ) : List Link :=
  (linksToTerminal links i t).drop (failuresToTerminal failures i t)

/-- The links from a router to a router, with those that have failed or without them. -/
def linksOf (links : List Link) (failures : List LinkInfo) (includeFailed : Bool) (i j : ℤ) :
    List Link :=
  if includeFailed then linksBetween links i j else workingBetween links failures i j

/-- The links from a router to a terminal, with those that have failed or without them. -/
def terminalLinksOf (links : List Link) (failures : List LinkInfo) (includeFailed : Bool)
    (i t : ℤ) : List Link :=
  if includeFailed then linksToTerminal links i t else workingToTerminal links failures i t

/-- A router has a connection of a type to a router or a terminal. -/
def Connects (links : List Link) (failures : List LinkInfo) (includeFailed : Bool) (i d : ℤ) :
    ConnectionType → Prop
  | .connLocal => ofType .connLocal (linksOf links failures includeFailed i d) ≠ []
  | .connGlobal => ofType .connGlobal (linksOf links failures includeFailed i d) ≠ []
  | .connTerminal => terminalLinksOf links failures includeFailed i d ≠ []
  -- injection links start at terminals
  | .connInjection => False

/-- A router has a connection of some type. -/
def ConnectsSomehow (links : List Link) (failures : List LinkInfo) (includeFailed : Bool)
    (i d : ℤ) :
    Prop :=
  ∃ ty, Connects links failures includeFailed i d ty

theorem connectsSomehow_iff {includeFailed : Bool} {i d : ℤ} :
    ConnectsSomehow links failures includeFailed i d ↔
      Connects links failures includeFailed i d .connLocal ∨
        Connects links failures includeFailed i d .connGlobal ∨
        Connects links failures includeFailed i d .connTerminal := by
  constructor
  · rintro ⟨ty, h⟩
    cases ty with
    | connLocal => exact .inl h
    | connGlobal => exact .inr (.inl h)
    | connTerminal => exact .inr (.inr h)
    | connInjection => exact h.elim
  · rintro (h | h | h) <;> exact ⟨_, h⟩

/-- **A group that a router reaches**: over a working global link, or over a working local link and
a working global one. -/
def Reaches (p : NetworkParam) (links : List Link) (failures : List LinkInfo) (i g : ℤ) : Prop :=
  HasGlobal p (workingBetween links failures) i g ∨
    ∃ j, Connects links failures false i j .connLocal ∧
      HasGlobal p (workingBetween links failures) j g

/-- A router of the group of a router has a working global link to a group, and the router has a
working connection to its number. -/
def ReachesByNumber (p : NetworkParam) (links : List Link) (failures : List LinkInfo) (i g : ℤ) :
    Prop :=
  (∃ k : ℕ, k < p.totalGroups ∧ (k : ℤ) = g) ∧
    ∃ j, LeadsTo p (workingBetween links failures) i g j ∧ ConnectsSomehow links failures false i j

/-! ### The maps of a router -/

theorem NoEmpty.mem_iff {κ : Type*} [Ord κ] [Std.TransOrd κ] [Std.LawfulEqOrd κ] [DecidableEq κ]
    {α : Type*} {groups : Std.ExtTreeMap κ (List α)} (h : NoEmpty groups) (k : κ) :
    k ∈ groups ↔ get groups k ≠ [] := by
  rw [Std.ExtTreeMap.mem_iff_isSome_getElem?, h.getElem?]
  split_ifs with hk <;> simp [hk]

theorem mem_withoutFailed (groups : Std.ExtTreeMap ℤ (List Connection)) (k : ℤ) :
    k ∈ withoutFailed groups ↔
      (get groups k).filter (fun conn : Connection => !conn.isFailed) ≠ [] := by
  rw [← (filtered_withoutFailed groups).get]
  exact NoEmpty.mem_iff (noEmpty_collect _ _) k

/-- **How many connections a router has to a terminal**, and how many of them work. -/
theorem length_terminal (h : Linked links m) (hfailed : Failed failures m) {i t : ℤ}
    {conns : List Connection} (hconns : SamePorts (deref m.terminalConns
      (m.routerToTerminalConnectionMap (i, t))) conns) :
    conns.length = (linksToTerminal links i t).length ∧
      (conns.filter (!·.isFailed)).length = (workingToTerminal links failures i t).length := by
  have hlen : (deref m.terminalConns (m.routerToTerminalConnectionMap (i, t))).length =
      (linksToTerminal links i t).length := by
    simpa using congrArg List.length (h.toTerminal i t)
  constructor
  · rw [hconns.length, hlen]
  · rw [(hconns.filter (P := fun conn => !conn.isFailed) fun _ => rfl).length,
      (hfailed.terminals i t).filter_working, List.length_drop, hlen, workingToTerminal,
      List.length_drop]

variable {enabled : Bool} {net : Network}

/-- **What a router finds under a number.** -/
theorem isConnectedToByType_iff
    (hnet : solidify p enabled links failures = some net) {i : ℕ} (hi : i < p.totalRouters) (d : ℤ)
    (ty : ConnectionType) (includeFailed : Bool) :
    (net.routers i).isConnectedToByType d ty includeFailed = true ↔
      ConnectsSomehow links failures includeFailed i d := by
  obtain ⟨m, conns, A, B, h, hfailed, -, hA, hB, hholds, -, hsolid⟩ := solidify_router hnet hi
  have hlocal : ConnectionType.connLocal ≠ .connTerminal := nofun
  have hglobal : ConnectionType.connGlobal ≠ .connTerminal := nofun
  have hlen := length_router h hfailed (get_router h hA hB hlocal hholds.intraGID d)
  have hlen' := length_router h hfailed (get_router h hA hB hglobal hholds.global d)
  have hlen'' := length_terminal h hfailed (get_terminal h hA hB hholds.terminal d)
  have hempty {α β : Type} {l : List α} {l' : List β} (h : l.length = l'.length) :
      l ≠ [] ↔ l' ≠ [] := by
    rw [← List.length_pos_iff, ← List.length_pos_iff, h]
  rw [connectsSomehow_iff, hsolid]
  cases includeFailed with
  | true =>
    simp only [SolidManager.isConnectedToByType, if_true, Bool.or_eq_true,
      decide_eq_true_eq, or_assoc]
    exact or_congr ((NoEmpty.mem_iff hholds.intraGID.noEmpty d).trans (hempty hlen.1))
      (or_congr ((NoEmpty.mem_iff hholds.global.noEmpty d).trans (hempty hlen'.1))
        ((NoEmpty.mem_iff hholds.terminal.noEmpty d).trans (hempty hlen''.1)))
  | false =>
    simp only [SolidManager.isConnectedToByType, Bool.false_eq_true, if_false, Bool.or_eq_true,
      decide_eq_true_eq, or_assoc]
    exact or_congr ((mem_withoutFailed _ d).trans (hempty hlen.2))
      (or_congr ((mem_withoutFailed _ d).trans (hempty hlen'.2))
        ((mem_withoutFailed _ d).trans (hempty hlen''.2)))

theorem isAnyConnectionTo_iff
    (hnet : solidify p enabled links failures = some net) {i : ℕ} (hi : i < p.totalRouters) (d : ℤ)
    (includeFailed : Bool) : (net.routers i).isAnyConnectionTo p d includeFailed = true ↔
      ConnectsSomehow links failures includeFailed i (p.localId d) ∨
        ConnectsSomehow links failures includeFailed i d := by
  rw [SolidManager.isAnyConnectionTo]
  simp only [Bool.or_eq_true, isConnectedToByType_iff hnet hi]
  tauto

/-! ### Accessible groups -/

theorem destGid_of_workingBetween {i j : ℤ} {l : Link} (h : l ∈ workingBetween links failures i j) :
    l.destGid = j := by
  have hl := (List.mem_filter.1 (List.mem_of_mem_drop h)).2
  simp only [decide_eq_true_eq] at hl
  exact hl.2.2

theorem mem_foldl_add {l l' : List ℤ} {g : ℤ} :
    g ∈ l'.foldl (fun l g => if g ∈ l then l else l ++ [g]) l ↔ g ∈ l ∨ g ∈ l' := by
  induction l' generalizing l with
  | nil => simp
  | cons g' l' ih =>
    rw [List.foldl_cons, ih, List.mem_cons]
    split_ifs with hg
    · refine ⟨fun h => h.imp_right .inr, fun h => ?_⟩
      obtain h | rfl | h := h
      · exact .inl h
      · exact .inl hg
      · exact .inr h
    · rw [List.mem_append, List.mem_singleton, or_assoc]

variable {groups : Std.ExtTreeMap ℤ (List Connection)}

theorem mem_groupsOf {g : ℤ} : g ∈ groupsOf groups ↔ get groups g ≠ [] := by
  rw [groupsOf, Groups.get]
  constructor
  · intro hg
    obtain ⟨⟨g', l⟩, he, rfl⟩ := List.mem_map.1 hg
    obtain ⟨hmem, hlen⟩ := List.mem_filter.1 he
    rw [Std.ExtTreeMap.mem_toList_iff_getElem?_eq_some.1 hmem, Option.getD_some]
    exact List.length_pos_iff.1 (by simpa using hlen)
  · intro hne
    cases hget : groups[g]? with
    | none => simp [hget] at hne
    | some l =>
      rw [hget, Option.getD_some] at hne
      exact List.mem_map.2 ⟨(g, l), List.mem_filter.2
        ⟨Std.ExtTreeMap.mem_toList_iff_getElem?_eq_some.2 hget, by
          simpa using List.length_pos_iff.2 hne⟩, rfl⟩

theorem mem_keys_any {P : Connection → Bool} {g : ℤ} :
    g ∈ (groups.toList.filter fun e => e.2.any P).map Prod.fst ↔
      ∃ conn ∈ get groups g, P conn = true := by
  rw [Groups.get]
  constructor
  · intro hg
    obtain ⟨⟨g', l⟩, he, rfl⟩ := List.mem_map.1 hg
    obtain ⟨hmem, hany⟩ := List.mem_filter.1 he
    rw [Std.ExtTreeMap.mem_toList_iff_getElem?_eq_some.1 hmem, Option.getD_some]
    exact List.any_eq_true.1 hany
  · rintro ⟨conn, hconn, hP⟩
    cases hget : groups[g]? with
    | none => simp [hget] at hconn
    | some l =>
      rw [hget, Option.getD_some] at hconn
      exact List.mem_map.2 ⟨(g, l), List.mem_filter.2
        ⟨Std.ExtTreeMap.mem_toList_iff_getElem?_eq_some.2 hget,
          List.any_eq_true.2 ⟨conn, hconn, hP⟩⟩,
        rfl⟩

theorem ConnectionManager.mem_accessible (man : ConnectionManager) (g : ℤ) :
    g ∈ man.solidifyConnections.getAccessibleGroupIds ↔
      (∃ conn ∈ get man.routedConnectionsToGroupMap g, (!conn.isFailed) = true ∧
        man.solidifyConnections.isConnectedToByType conn.srcGid .connLocal false = true) ∨
      ∃ conn ∈ elems man.globalConnections, conn.isFailed = false ∧ conn.destGroupId = g := by
  have hrouted : (∃ conn ∈ get (withoutFailed man.routedConnectionsToGroupMap) g,
      man.solidifyConnections.isConnectedToByType conn.srcGid .connLocal false = true) ↔
        ∃ conn ∈ get man.routedConnectionsToGroupMap g, (!conn.isFailed) = true ∧
          man.solidifyConnections.isConnectedToByType conn.srcGid .connLocal false = true := by
    rw [(filtered_withoutFailed _).get]
    simp only [List.mem_filter, and_assoc]
  have hother : g ∈ groupsOf
    (withoutFailed (regroup Connection.destGroupId man.globalConnections)) ↔
      ∃ conn ∈ elems man.globalConnections, conn.isFailed = false ∧ conn.destGroupId = g := by
    rw [mem_groupsOf, (filtered_withoutFailed _).get, (by_regroup _ _).get,
      ← List.length_pos_iff, List.length_pos_iff_exists_mem]
    simp only [List.mem_filter, Option.some.injEq, decide_eq_true_eq, Bool.not_eq_true', and_assoc]
    exact exists_congr fun conn => and_congr_right fun _ => and_comm
  rw [← hrouted, ← hother, ← mem_keys_any]
  exact mem_foldl_add

/-- **The groups that count as accessible.** -/
theorem mem_getAccessibleGroupIds
    (hnet : solidify p enabled links failures = some net) {i : ℕ}
    (hi : i < p.totalRouters) (g : ℤ) : g ∈ (net.routers i).getAccessibleGroupIds ↔
      HasGlobal p (workingBetween links failures) i g ∨ ReachesByNumber p links failures i g := by
  obtain ⟨m, conns, A, B, h, hfailed, hconns, hA, hB, hholds, hrouted, hsolid⟩ :=
    solidify_router hnet hi
  have hdirect : (∃ conn ∈ elems (net.routers i).globalConnections,
      conn.isFailed = false ∧ conn.destGroupId = g) ↔
        HasGlobal p (workingBetween links failures) i g := by
    rw [exists_global_iff hnet hi]
    refine exists_congr fun j => exists_congr fun l => and_congr_right fun hl => ?_
    rw [destGid_of_workingBetween hl]
  have hnumber : (∃ conn ∈ get (net.routers i).routedConnectionsToGroupMap g,
      (!conn.isFailed) = true ∧
        (net.routers i).isConnectedToByType conn.srcGid .connLocal false = true) ↔
          ReachesByNumber p links failures i g := by
    simp only [isConnectedToByType_iff hnet hi]
    by_cases hg : ∃ k : ℕ, k < p.totalGroups ∧ (k : ℤ) = g
    · obtain ⟨k, hk, rfl⟩ := hg
      have hleads (j : ℤ) := exists_routed_iff h hconns (Q := fun conn => !conn.isFailed)
        (fun _ => rfl) (h.working hfailed) i k hk j
      rw [← hrouted] at hleads
      rw [ReachesByNumber, and_iff_right ⟨k, hk, rfl⟩]
      simp only [← hleads]
      constructor
      · rintro ⟨conn, hconn, hworks, hsome⟩
        exact ⟨conn.srcGid, ⟨conn, hconn, hworks, rfl⟩, hsome⟩
      · rintro ⟨j, ⟨conn, hconn, hworks, rfl⟩, hsome⟩
        exact ⟨conn, hconn, hworks, hsome⟩
    · have hnone : get (net.routers i).routedConnectionsToGroupMap g = [] := by
        rw [hrouted, get_routedToGroups h hconns, if_neg hg]
      rw [hnone]
      exact iff_of_false (by simp) fun hreach => hg hreach.1
  rw [hsolid, ConnectionManager.mem_accessible, ← hsolid, hnumber, hdirect]
  exact or_comm

/-! ### The answers -/

variable {i d g : ℤ} {includeFailed : Bool}

/-- Over a working local link to a router of the own group that has a working global link. -/
def ReachesNear (p : NetworkParam) (links : List Link) (failures : List LinkInfo) (i g : ℤ) :
    Prop :=
  (∃ k : ℕ, k < p.totalGroups ∧ (k : ℤ) = g) ∧
    ∃ j, LeadsTo p (workingBetween links failures) i g j ∧
    Connects links failures false i j .connLocal

/-- A router of the own group has a working global link to a group, and its number is that of a
router at the end of a working global link, or of a terminal. -/
def Misled (p : NetworkParam) (links : List Link) (failures : List LinkInfo) (i g : ℤ) : Prop :=
  (∃ k : ℕ, k < p.totalGroups ∧ (k : ℤ) = g) ∧
    ∃ j, LeadsTo p (workingBetween links failures) i g j ∧
      (Connects links failures false i j .connGlobal ∨ Connects links failures false i j
        .connTerminal)

theorem reachesByNumber_iff : ReachesByNumber p links failures i g ↔
    ReachesNear p links failures i g ∨ Misled p links failures i g := by
  simp only [ReachesByNumber, ReachesNear, Misled, connectsSomehow_iff, and_or_left, exists_or]

theorem ReachesNear.reaches (h : ReachesNear p links failures i g) :
    Reaches p links failures i g := by
  obtain ⟨-, j, hleads, hlocal⟩ := h
  exact .inr ⟨j, hlocal, hleads.2⟩

theorem Connects.exists_link {ty : ConnectionType}
    (h : Connects links failures includeFailed i d ty) :
    ∃ l ∈ links, l.srcGid = i ∧ l.destGid = d ∧ l.connType = ty := by
  have hbetween {ty : ConnectionType} {l : Link}
      (hl : l ∈ ofType ty (linksOf links failures includeFailed i d)) :
      ∃ l ∈ links, l.srcGid = i ∧ l.destGid = d ∧ l.connType = ty := by
    obtain ⟨hl, hty⟩ := List.mem_filter.1 hl
    have hmem : l ∈ linksBetween links i d := by
      cases includeFailed with
      | true => exact hl
      | false => exact List.mem_of_mem_drop hl
    obtain ⟨hmem, hends⟩ := List.mem_filter.1 hmem
    simp only [decide_eq_true_eq] at hends hty
    exact ⟨l, hmem, hends.2.1, hends.2.2, hty⟩
  cases ty with
  | connLocal =>
    obtain ⟨l, hl⟩ := List.exists_mem_of_ne_nil _ h
    exact hbetween hl
  | connGlobal =>
    obtain ⟨l, hl⟩ := List.exists_mem_of_ne_nil _ h
    exact hbetween hl
  | connTerminal =>
    obtain ⟨l, hl⟩ := List.exists_mem_of_ne_nil _ h
    have hmem : l ∈ linksToTerminal links i d := by
      cases includeFailed with
      | true => exact hl
      | false => exact List.mem_of_mem_drop hl
    obtain ⟨hmem, hends⟩ := List.mem_filter.1 hmem
    simp only [decide_eq_true_eq] at hends
    exact ⟨l, hmem, hends.2.1, hends.2.2, hends.1⟩
  | connInjection => exact h.elim

/-- A link counts while the failed ones are counted. -/
theorem connects_of_link {l : Link} (h : l ∈ links) :
    Connects links failures true l.srcGid l.destGid l.connType := by
  have hbetween (hty : l.connType ≠ .connTerminal) :
      l ∈ ofType l.connType (linksBetween links l.srcGid l.destGid) := by
    refine List.mem_filter.2 ⟨List.mem_filter.2 ⟨h, ?_⟩, decide_eq_true rfl⟩
    simp [hty]
  cases hty : l.connType with
  | connLocal =>
    refine List.ne_nil_of_mem (a := l) ?_
    have := hbetween (by simp [hty])
    rwa [hty] at this
  | connGlobal =>
    refine List.ne_nil_of_mem (a := l) ?_
    have := hbetween (by simp [hty])
    rwa [hty] at this
  | connTerminal =>
    refine List.ne_nil_of_mem (a := l) (List.mem_filter.2 ⟨h, ?_⟩)
    simp [hty]
  | connInjection => exact absurd hty l.notInjection

/-- Among the numbers with a number in the group there is one that no link leads to. -/
theorem exists_localId_eq (p : NetworkParam) {k : ℤ} (hk : k.natAbs < p.numRoutersPerGroup)
    (ids : List ℤ) : ∃ d, p.localId d = k ∧ d ∉ ids := by
  have hpos : (p.numRoutersPerGroup : ℤ) ≠ 0 := by omega
  have hinj : Function.Injective fun n : ℕ => if 0 ≤ k then k + p.numRoutersPerGroup * n
      else k - p.numRoutersPerGroup * n := by
    intro n n' h
    dsimp only at h
    split_ifs at h
    · exact_mod_cast Int.eq_of_mul_eq_mul_left hpos (Int.add_left_cancel h)
    · have hmul : (p.numRoutersPerGroup : ℤ) * n = p.numRoutersPerGroup * n' := by omega
      exact_mod_cast Int.eq_of_mul_eq_mul_left hpos hmul
  obtain ⟨d, ⟨n, rfl⟩, hd⟩ := (Set.infinite_range_of_injective hinj).exists_notMem_finset
    ids.toFinset
  refine ⟨_, ?_, fun h => hd (List.mem_toFinset.2 h)⟩
  have hlocal {a : ℤ} (ha : 0 ≤ a) (hlt : a < p.numRoutersPerGroup) :
      p.localId (a + p.numRoutersPerGroup * n) = a := by
    rw [NetworkParam.localId, Int.tmod_eq_emod_of_nonneg
      (Int.add_nonneg ha (Int.mul_nonneg (Int.natCast_nonneg _) (Int.natCast_nonneg _))),
      Int.add_mul_emod_self_left, Int.emod_eq_of_lt ha hlt]
  dsimp only
  split_ifs with hsign
  · exact hlocal hsign (by omega)
  · have hneg := hlocal (a := -k) (by omega) (by omega)
    rw [NetworkParam.localId] at hneg ⊢
    rw [show k - p.numRoutersPerGroup * n = -(-k + p.numRoutersPerGroup * n) by omega, Int.neg_tmod,
      hneg, Int.neg_neg]

/-- **When the answers are right**, for all questions to a router.

* All of them are if no link starts at the router, and else some are not.
* Those for a type are if, wherever a link leads that is counted, one of the type does.
* Those for any type are if no link leads to a number that is a number in a group.
* The accessible groups are if no router of the own group is taken for another one or for a
  terminal, and no local link leaves the own group, or the group is reached in another way. -/
theorem connectivity_iff {enabled : Bool} {net : Network}
    (hnet : solidify p enabled links failures = some net) {i : ℕ} (hi : i < p.totalRouters) :
    ((((∀ d ty includeFailed, (net.routers i).isConnectedToByType d ty includeFailed = true ↔
          Connects links failures includeFailed i d ty) ∧
        (∀ d includeFailed, (net.routers i).isAnyConnectionTo p d includeFailed = true ↔
          ConnectsSomehow links failures includeFailed i d) ∧
        ∀ g, g ∈ (net.routers i).getAccessibleGroupIds ↔ Reaches p links failures i g) ↔
      ∀ l ∈ links, l.srcGid ≠ i)) ∧
    (∀ ty, (∀ d includeFailed, (net.routers i).isConnectedToByType d ty includeFailed = true ↔
          Connects links failures includeFailed i d ty) ↔
      ∀ d includeFailed ty', Connects links failures includeFailed i d ty' →
        Connects links failures includeFailed i d ty) ∧
    ((∀ d includeFailed, (net.routers i).isAnyConnectionTo p d includeFailed = true ↔
          ConnectsSomehow links failures includeFailed i d) ↔
      ∀ l ∈ links, l.srcGid = i → p.numRoutersPerGroup ≤ l.destGid.natAbs) ∧
    ((∀ g, g ∈ (net.routers i).getAccessibleGroupIds ↔ Reaches p links failures i g) ↔
      ∀ g, (Misled p links failures i g → Reaches p links failures i g) ∧
        (Reaches p links failures i g → HasGlobal p (workingBetween links failures) i g ∨
          ReachesNear p links failures i g ∨ Misled p links failures i g)) := by
  have hsomehow {d : ℤ} {includeFailed : Bool} : ConnectsSomehow links failures includeFailed i d →
      ∃ l ∈ links, l.srcGid = i ∧ l.destGid = d := by
    rintro ⟨ty, hty⟩
    obtain ⟨l, hl, hsrc, hdest, -⟩ := hty.exists_link
    exact ⟨l, hl, hsrc, hdest⟩
  have htypes (ty : ConnectionType) :
      (∀ d includeFailed, (net.routers i).isConnectedToByType d ty includeFailed = true ↔
          Connects links failures includeFailed i d ty) ↔
        ∀ d includeFailed ty', Connects links failures includeFailed i d ty' →
          Connects links failures includeFailed i d ty := by
    simp only [isConnectedToByType_iff hnet hi]
    exact ⟨fun h d f ty' hty' => (h d f).1 ⟨ty', hty'⟩,
      fun h d f => ⟨fun ⟨ty', hty'⟩ => h d f ty' hty', fun hty => ⟨ty, hty⟩⟩⟩
  have hany : (∀ d includeFailed, (net.routers i).isAnyConnectionTo p d includeFailed = true ↔
          ConnectsSomehow links failures includeFailed i d) ↔
      ∀ l ∈ links, l.srcGid = i → p.numRoutersPerGroup ≤ l.destGid.natAbs := by
    simp only [isAnyConnectionTo_iff hnet hi]
    constructor
    · intro h l hl hsrc
      by_contra hlt
      obtain ⟨d, hd, hnot⟩ := exists_localId_eq p (Nat.lt_of_not_le hlt)
        (links.map fun l => l.destGid)
      have hk : ConnectsSomehow links failures true i (p.localId d) := by
        rw [hd, ← hsrc]
        exact ⟨_, connects_of_link hl⟩
      obtain ⟨l', hl', -, hdest⟩ := hsomehow ((h d true).1 (.inl hk))
      exact hnot (List.mem_map.2 ⟨l', hl', hdest⟩)
    · intro h d includeFailed
      refine ⟨fun hfound => hfound.elim (fun hlocal => ?_) id, .inr⟩
      obtain ⟨l, hl, hsrc, hdest⟩ := hsomehow hlocal
      have hle := h l hl hsrc
      have hmod : l.destGid.natAbs = d.natAbs % p.numRoutersPerGroup := by
        rw [hdest, NetworkParam.localId, Int.natAbs_tmod, Int.natAbs_natCast]
      obtain hzero | hpos := Nat.eq_zero_or_pos p.numRoutersPerGroup
      · rwa [NetworkParam.localId, hzero, Int.natCast_zero, Int.tmod_zero] at hlocal
      · have := Nat.mod_lt d.natAbs hpos
        omega
  have hgroups : (∀ g, g ∈ (net.routers i).getAccessibleGroupIds ↔ Reaches p links failures i g) ↔
      ∀ g, (Misled p links failures i g → Reaches p links failures i g) ∧
        (Reaches p links failures i g → HasGlobal p (workingBetween links failures) i g ∨
          ReachesNear p links failures i g ∨ Misled p links failures i g) := by
    refine forall_congr' fun g => ?_
    rw [mem_getAccessibleGroupIds hnet hi, reachesByNumber_iff]
    have hnear := @ReachesNear.reaches p links failures i g
    have hdirect : HasGlobal p (workingBetween links failures) i g → Reaches p links failures i g :=
      .inl
    exact ⟨fun h => ⟨fun hmisled => h.1 (.inr (.inr hmisled)), h.2⟩,
      fun h => ⟨fun hg => hg.elim hdirect fun hg => hg.elim hnear h.1, h.2⟩⟩
  refine ⟨⟨fun h l hl hsrc => ?_, fun h => ?_⟩, htypes, hany, hgroups⟩
  · have hlink := (htypes .connInjection).1 (fun d f => h.1 d .connInjection f) l.destGid true _
      (hsrc ▸ connects_of_link hl)
    exact hlink
  · have hnone {d : ℤ} {includeFailed : Bool} {ty : ConnectionType} :
        ¬Connects links failures includeFailed i d ty := fun hty =>
      have ⟨l, hl, hsrc, _⟩ := hty.exists_link
      h l hl hsrc
    refine ⟨fun d ty => (htypes ty).2 (fun d f ty' hty' => absurd hty' hnone) d,
      hany.2 fun l hl hsrc => absurd hsrc (h l hl), hgroups.2 fun g => ⟨?_, ?_⟩⟩
    · rintro ⟨-, j, -, hj⟩
      exact absurd hj (not_or.2 ⟨hnone, hnone⟩)
    · exact fun hreach => .inl (hreach.resolve_right fun hlocal => hnone hlocal.choose_spec.1)

/-- Router 0 is joined to router 1 by local links, and to nothing else: it answers what it is asked
about local links. -/
theorem connectivity_onlyLocal : ∃ net,
    solidify twoGroups true [localLink 0 1, localLink 0 1, globalLink 1 2] oneFailure = some net ∧
      ∀ d includeFailed, (net.routers 0).isConnectedToByType d .connLocal includeFailed = true ↔
        Connects [localLink 0 1, localLink 0 1, globalLink 1 2] oneFailure includeFailed (0 : ℕ) d
          .connLocal := by
  have hsome : (solidify twoGroups true [localLink 0 1, localLink 0 1, globalLink 1 2]
      oneFailure).isSome = true := by decide +kernel
  obtain ⟨net, hnet⟩ := Option.isSome_iff_exists.1 hsome
  refine ⟨net, hnet, ((connectivity_iff hnet (i := 0) (by decide)).2.1 .connLocal).2
    fun d includeFailed ty hty => ?_⟩
  obtain ⟨l, hl, hsrc, -, rfl⟩ := hty.exists_link
  have hlocal : ∀ l ∈ [localLink 0 1, localLink 0 1, globalLink 1 2], l.srcGid = (0 : ℕ) →
      l.connType = .connLocal := by
    decide
  rwa [hlocal l hl hsrc] at hty

/-- **Terminal 0 is found as router 0**: router 0 has no local link to itself. -/
theorem terminal_found_as_router : ¬ ∀ (p : NetworkParam) (enabled : Bool) (links : List Link)
    (failures : List LinkInfo) (net : Network), solidify p enabled links failures = some net →
      ∀ i : ℕ, i < p.totalRouters → ∀ d ty includeFailed,
        (net.routers i).isConnectedToByType d ty includeFailed = true ↔
          Connects links failures includeFailed i d ty := by
  intro h
  have hsome : (solidify twoGroups true (parallelLinks 1) []).map (fun net =>
      (net.routers 0).isConnectedToByType 0 .connLocal false) = some true := by
    decide +kernel
  obtain ⟨net, hnet, hfound⟩ := Option.map_eq_some_iff.1 hsome
  have hlocal := (h _ _ _ _ net hnet 0 (by decide) 0 .connLocal false).1 hfound
  rw [Connects] at hlocal
  exact hlocal (by decide +kernel)

end CodesSim.NetMan
