import CodesSim.Dally.PortClass
import CodesSim.Dally.Routing

/-!
# Intermediate groups

Where the routing selects an intermediate group for a packet, and what it selects from
(`select_intermediate_group_iff`).  A packet is followed from router to router (`journey`); the
states of the routers and the random numbers are labels, so nothing is assumed of them.

* The first router selects from the groups of its plane without those of the source and the
  destination: with two groups nothing is left.
* On the way only progressive adaptive routing selects, at a second router in the group of the
  source, and from the groups that this router has working global links to.  It may have none to a
  third group; and if a link file has negative ids, links lead from one plane to another.
-/

namespace CodesSim.Dally

open NetMan (workingBetween)
open Synthetic (RandIntegers)

/-! ### Journeys -/

/-- The router of the destination, in the plane of a router. -/
def destRouter (p : Param) (self : ℕ) (msg : Msg) : ℕ :=
  p.assignedRouterId msg.dfdallyDestTerminalId (p.planeId self)

/-- A packet as it is routed: its path starts as minimal. -/
def atRouter (msg : Msg) : Msg :=
  { msg with pathType := if msg.lastHop = .terminalHop then .minimal else msg.pathType }

/-- One hop of a packet; none if it is not routed to a router. -/
def hop (p : Param) (rp : RoutingParam) (net : NetMan.Network) (x : ℕ × Msg) (env : RoutingEnv) :
    Option (ℕ × Msg) :=
  match doDfdallyRouting p rp (net.routers x.1) env x.1 (atRouter x.2) (destRouter p x.1 x.2) with
  | .ok (some conn, msg) =>
    if conn.connType ≠ .connTerminal ∧ 0 ≤ conn.destGid ∧ conn.destGid < p.totalRouters then
      some (conn.destGid.toNat, { msg with
        lastHop := if portClass p conn.port.toNat = .connGlobal then .globalHop else .localHop })
    else none
  | _ => none

/-- A packet on its way through the network. -/
def journey (p : Param) (rp : RoutingParam) (net : NetMan.Network) : Machine (ℕ × Msg) RoutingEnv :=
  ⟨hop p rp net⟩

/-- A packet that a terminal has sent to its router on a rail. -/
structure Injected (p : Param) (x : ℕ × Msg) : Prop where
  router : ∃ term < p.totalTerminals, ∃ rail < p.numRails, x.1 = p.assignedRouterId term rail
  origin : x.2.originRouterId = x.1
  lastHop : x.2.lastHop = .terminalHop
  intmGrpId : x.2.intmGrpId = none
  dest : x.2.dfdallyDestTerminalId < p.totalTerminals

/-- A packet in a network. -/
structure OnItsWay (p : Param) (x : ℕ × Msg) : Prop where
  self_lt : x.1 < p.totalRouters
  dest_lt : x.2.dfdallyDestTerminalId < p.totalTerminals
  first : x.2.lastHop = .terminalHop → x.1 = x.2.originRouterId ∧ x.2.intmGrpId = none
  later : x.2.lastHop ≠ .terminalHop → x.2.intmGrpId ≠ none ∨
    p.groupId x.2.originRouterId = p.groupId (destRouter p x.2.originRouterId x.2)

/-- Here the first router selects a group. -/
def SelectsAtOrigin (p : Param) (x : ℕ × Msg) : Prop :=
  p.groupId x.1 ≠ p.groupId (destRouter p x.1 x.2) ∧ SelectsFirst x.2

/-- Here a later router selects another group. -/
def SelectsOnTheWay (p : Param) (rp : RoutingParam) (net : NetMan.Network) (x : ℕ × Msg) : Prop :=
  rp.routing = .progAdaptive ∧ p.groupId x.1 ≠ p.groupId (destRouter p x.1 x.2) ∧
    Reselects p (net.routers x.1) x.1 x.2

/-! ### What is selected -/

/-- A group of the plane of a router. -/
def InPlane (p : Param) (self : ℕ) (g : ℤ) : Prop :=
  ((p.numGroups * p.planeId self : ℕ) : ℤ) ≤ g ∧ g < (p.numGroups * (p.planeId self + 1) : ℕ)

/-- Neither the group of the source of a packet nor that of its destination. -/
def IsThird (p : Param) (x : ℕ × Msg) (g : ℤ) : Prop :=
  g ≠ p.groupId x.2.originRouterId ∧ g ≠ p.groupId (destRouter p x.1 x.2)

/-- An intermediate group of a packet as it should be. -/
structure IsIntermediate (p : Param) (x : ℕ × Msg) (g : ℤ) : Prop where
  nonneg : 0 ≤ g
  lt : g < p.totalGroups
  third : IsThird p x g
  inPlane : InPlane p x.2.originRouterId g

/-- There are groups to select from, and whatever the random number, a good one is selected. -/
def GoodSelection (p : Param) (net : NetMan.Network) (x : ℕ × Msg) : Prop :=
  intmCandidates p (net.routers x.1) x.1 x.2 (destRouter p x.1 x.2) ≠ [] ∧
    ∀ rng : RandIntegers, ∃ r, selectIntermediateGroup p (net.routers x.1) rng x.1 x.2
      (destRouter p x.1 x.2) = .ok r ∧ IsIntermediate p x r.1

/-- A router has a working global link to a group. -/
def LinkedTo (p : Param) (files : LinkFiles) (self : ℕ) (g : ℤ) : Prop :=
  ∃ j, ∃ l ∈ workingBetween (links p files) (files.failures.getD []) self j,
    l.connType = .connGlobal ∧ p.networkParam.groupId l.destGid = g

/-- **A router on the way has where to go**: to a third group, and to none of another plane. -/
def ThirdGroupLinked (p : Param) (files : LinkFiles) (x : ℕ × Msg) : Prop :=
  (∃ g, LinkedTo p files x.1 g ∧ IsThird p x g) ∧
    ∀ g, LinkedTo p files x.1 g → IsThird p x g → InPlane p x.1 g

/-- If a group is selected for a packet, the selection is good. -/
def SelectionGood (p : Param) (rp : RoutingParam) (net : NetMan.Network) (x : ℕ × Msg) : Prop :=
  SelectsAtOrigin p x ∨ SelectsOnTheWay p rp net x → GoodSelection p net x

/-- There are three groups at the first router, and later ones are linked to a third one. -/
def EnoughGroups (p : Param) (rp : RoutingParam) (files : LinkFiles) (net : NetMan.Network)
    (x : ℕ × Msg) : Prop :=
  (SelectsAtOrigin p x → 3 ≤ p.numGroups) ∧
    (SelectsOnTheWay p rp net x → ThirdGroupLinked p files x)

section

variable {p : Param} {rp : RoutingParam} {net : NetMan.Network} {files : LinkFiles}

/-! ### Planes -/

theorem routersPerPlane_eq (hplanes : 0 < p.numPlanes) :
    p.routersPerPlane = p.numRouters * p.numGroups := by
  rw [Param.routersPerPlane, Param.totalRouters, Nat.mul_right_comm,
    Nat.mul_div_cancel _ hplanes, Nat.mul_comm]

theorem totalTerminals_eq (hplanes : 0 < p.numPlanes) :
    p.totalTerminals = p.routersPerPlane * p.numCn := by
  rw [Param.totalTerminals, totalRouters_eq, Nat.mul_right_comm, Nat.mul_div_cancel _ hplanes]

theorem assignedRouterId_plane (hplanes : 0 < p.numPlanes) {term plane : ℕ}
    (hterm : term < p.totalTerminals) (hplane : plane < p.numPlanes) :
    p.planeId (p.assignedRouterId term plane) = plane := by
  have hlt : term / p.numCn < p.routersPerPlane := by
    rw [totalTerminals_eq hplanes, Nat.mul_comm] at hterm
    exact Nat.div_lt_of_lt_mul hterm
  have hpos : 0 < p.routersPerPlane := Nat.zero_lt_of_lt hlt
  rw [Param.planeId, Param.assignedRouterId, ← Param.routersPerPlane]
  split_ifs with hone
  · rw [Nat.div_eq_of_lt hlt]
    omega
  · rw [Nat.add_mul_div_right _ _ hpos, Nat.div_eq_of_lt hlt, Nat.zero_add]

variable {self : ℕ}

theorem planeId_lt (h : self < p.totalRouters) : p.planeId self < p.numPlanes := by
  rw [totalRouters_eq] at h
  exact Nat.div_lt_of_lt_mul h

theorem lt_totalRouters_of_planeId (hpos : 0 < p.routersPerPlane)
    (h : p.planeId self < p.numPlanes) : self < p.totalRouters := by
  rw [totalRouters_eq, Nat.mul_comm]
  exact (Nat.div_lt_iff_lt_mul hpos).1 h

theorem planeId_eq (hplanes : 0 < p.numPlanes) (self : ℕ) :
    p.planeId self = p.groupId self / p.numGroups := by
  rw [Param.planeId, ← Param.routersPerPlane, routersPerPlane_eq hplanes, Param.groupId,
    Nat.div_div_eq_div_mul]

theorem groupId_eq (hplanes : 0 < p.numPlanes) (hgroups : 0 < p.numGroups) (self : ℕ) :
    ∃ a < p.numGroups, p.groupId self = p.numGroups * p.planeId self + a := by
  refine ⟨p.groupId self % p.numGroups, Nat.mod_lt _ hgroups, ?_⟩
  rw [planeId_eq hplanes]
  exact (Nat.div_add_mod _ _).symm

/-! ### The invariant -/

variable {x : ℕ × Msg}

theorem Injected.onItsWay (hplanes : 0 < p.numPlanes) (h : Injected p x) : OnItsWay p x := by
  obtain ⟨term, hterm, rail, hrail, hself⟩ := h.router
  refine ⟨?_, h.dest, fun _ => ⟨h.origin.symm, h.intmGrpId⟩, fun hne => absurd h.lastHop hne⟩
  have hpos : 0 < p.routersPerPlane := Nat.pos_of_ne_zero fun hzero => by
    rw [totalTerminals_eq hplanes, hzero, Nat.zero_mul] at hterm
    exact Nat.not_lt_zero _ hterm
  rw [hself]
  refine lt_totalRouters_of_planeId hpos ?_
  rcases p.planes_eq with hone | hrails
  · -- with one plane the rail does not matter
    have hsame : p.assignedRouterId term rail = p.assignedRouterId term 0 := by
      rw [Param.assignedRouterId, Param.assignedRouterId, if_pos hone, if_pos hone]
    rw [hsame, assignedRouterId_plane hplanes hterm hplanes]
    exact hplanes
  · rw [assignedRouterId_plane hplanes hterm (hrails ▸ hrail)]
    exact hrails ▸ hrail

theorem destRouter_congr (hplanes : 0 < p.numPlanes) {origin : ℕ} {msg msg' : Msg}
    (hgroup : p.groupId self = p.groupId origin)
    (hdest : msg.dfdallyDestTerminalId = msg'.dfdallyDestTerminalId) :
    destRouter p self msg = destRouter p origin msg' := by
  rw [destRouter, destRouter, hdest, planeId_eq hplanes, planeId_eq hplanes, hgroup]

theorem hop_eq_some {y : ℕ × Msg} {env : RoutingEnv} (h : hop p rp net x env = some y) :
    ∃ r, doDfdallyRouting p rp (net.routers x.1) env x.1 (atRouter x.2) (destRouter p x.1 x.2) =
        .ok r ∧ y.1 < p.totalRouters ∧ y.2.lastHop ≠ .terminalHop ∧
      y.2.originRouterId = r.2.originRouterId ∧
      y.2.dfdallyDestTerminalId = r.2.dfdallyDestTerminalId ∧ y.2.intmGrpId = r.2.intmGrpId := by
  rw [hop] at h
  split at h
  · rename_i conn msg heq
    split at h
    · rename_i hconn
      cases h
      refine ⟨_, heq, by omega, ?_, rfl, rfl, rfl⟩
      dsimp only
      split_ifs <;> nofun
    · cases h
  · cases h

theorem hop_onItsWay {y : ℕ × Msg} {env : RoutingEnv} (hway : OnItsWay p x)
    (h : hop p rp net x env = some y) : OnItsWay p y := by
  obtain ⟨r, hr, hlt, hlast, horigin, hdest, hgroup⟩ := hop_eq_some h
  obtain ⟨hkeeps, hselects⟩ := doDfdallyRouting_keeps hr
  have horigin' : y.2.originRouterId = x.2.originRouterId := horigin.trans hkeeps.origin
  have hdest' : y.2.dfdallyDestTerminalId = x.2.dfdallyDestTerminalId := hdest.trans hkeeps.dest
  have hrouter : ∀ self, destRouter p self y.2 = destRouter p self x.2 := fun self =>
    congrArg (p.assignedRouterId · _) hdest'
  refine ⟨hlt, hdest'.symm ▸ hway.dest_lt, fun hterm => absurd hterm hlast, fun _ => ?_⟩
  rw [horigin', hrouter, hgroup]
  by_cases hterm : x.2.lastHop = .terminalHop
  · obtain ⟨hself, hnone⟩ := hway.first hterm
    by_cases hsame : p.groupId x.1 = p.groupId (destRouter p x.1 x.2)
    · exact .inr (hself ▸ hsame)
    · exact .inl (hselects hsame ⟨hterm, hnone⟩)
  · exact (hway.later hterm).imp_left hkeeps.group

/-! ### What the candidates are -/

/-- Draws that hit a given place, if it is in the range. -/
def aimed (k : ℤ) : RandIntegers where
  draw _ lo hi := max lo (min k hi)
  lower _ _ _ _ := le_max_left _ _
  upper _ _ _ h := max_le h (min_le_right _ _)

/-- **Selections are good if and only if there are candidates and all are good.** -/
theorem goodSelection_iff (hassert : x.2.intmGrpId = none ↔ x.1 = x.2.originRouterId) :
    GoodSelection p net x ↔
      (∃ g, g ∈ intmCandidates p (net.routers x.1) x.1 x.2 (destRouter p x.1 x.2)) ∧
      ∀ g ∈ intmCandidates p (net.routers x.1) x.1 x.2 (destRouter p x.1 x.2),
        IsIntermediate p x g := by
  have hcands : intmCandidates p (net.routers x.1) x.1 x.2 (destRouter p x.1 x.2) ≠ [] ↔
      ∃ g, g ∈ intmCandidates p (net.routers x.1) x.1 x.2 (destRouter p x.1 x.2) :=
    ⟨List.exists_mem_of_ne_nil _, fun ⟨_, hg⟩ => List.ne_nil_of_mem hg⟩
  rw [GoodSelection, hcands]
  refine and_congr_right fun hne => ?_
  simp only [selectIntermediateGroup, if_pos hassert]
  generalize intmCandidates p (net.routers x.1) x.1 x.2 (destRouter p x.1 x.2) = cands at hne ⊢
  have hlen : 0 < cands.length := List.length_pos_of_mem hne.choose_spec
  constructor
  · intro hall g hg
    obtain ⟨k, hk, rfl⟩ := List.getElem_of_mem hg
    obtain ⟨r, hr, hgood⟩ := hall (aimed k)
    have hdraw : ((aimed k).draw x.2.numRngs 0 ((cands.length : ℤ) - 1)).toNat = k := by
      rw [aimed]
      dsimp only
      omega
    rw [pickRandom, hdraw, List.getElem?_eq_getElem hk] at hr
    cases hr
    exact hgood
  · intro hall rng
    have hlow := rng.lower x.2.numRngs 0 ((cands.length : ℤ) - 1) (by omega)
    have hup := rng.upper x.2.numRngs 0 ((cands.length : ℤ) - 1) (by omega)
    have hk : (rng.draw x.2.numRngs 0 ((cands.length : ℤ) - 1)).toNat < cands.length := by omega
    rw [pickRandom, List.getElem?_eq_getElem hk]
    exact ⟨_, rfl, hall _ (List.getElem_mem hk)⟩

theorem goodSelection_origin (hplanes : 0 < p.numPlanes) (hway : OnItsWay p x)
    (hsel : SelectsAtOrigin p x) : GoodSelection p net x ↔ 3 ≤ p.numGroups := by
  obtain ⟨hne, hterm, hnone⟩ := hsel
  obtain ⟨hself, -⟩ := hway.first hterm
  have hgroups : 0 < p.numGroups := Nat.pos_of_ne_zero fun hzero => by
    have hlt := hway.self_lt
    rw [Param.totalRouters, hzero, Nat.zero_mul, Nat.zero_mul] at hlt
    exact Nat.not_lt_zero _ hlt
  have hplane := planeId_lt hway.self_lt
  obtain ⟨a, ha, hsource⟩ := groupId_eq hplanes hgroups x.1
  obtain ⟨b, hb, hdest⟩ := groupId_eq hplanes hgroups (destRouter p x.1 x.2)
  rw [destRouter, assignedRouterId_plane hplanes hway.dest_lt hplane, ← destRouter] at hdest
  have hmem : ∀ g : ℤ, g ∈ intmCandidates p (net.routers x.1) x.1 x.2 (destRouter p x.1 x.2) ↔
      ∃ c < p.numGroups, c ≠ a ∧ c ≠ b ∧ g = (p.numGroups * p.planeId x.1 + c : ℕ) := by
    intro g
    rw [intmCandidates, if_pos hnone, planeGroups, List.mem_filter, ← hself, hsource, hdest]
    simp only [List.mem_map, List.mem_range, decide_eq_true_eq]
    constructor
    · rintro ⟨⟨c, hc, rfl⟩, hthird⟩
      exact ⟨c, hc, by omega, by omega, rfl⟩
    · rintro ⟨c, hc, hca, hcb, rfl⟩
      exact ⟨⟨c, hc, rfl⟩, by omega, by omega⟩
  rw [goodSelection_iff ⟨fun _ => hself, fun _ => hnone⟩]
  simp only [hmem]
  have hab : a ≠ b := by
    rintro rfl
    exact hne (hsource.trans hdest.symm)
  constructor
  · rintro ⟨⟨g, c, hc, hca, hcb, -⟩, -⟩
    omega
  · intro hthree
    constructor
    · obtain ⟨c, hc, hca, hcb⟩ : ∃ c < 3, c ≠ a ∧ c ≠ b := by
        by_contra hno
        push Not at hno
        have h0 := hno 0 (by decide)
        have h1 := hno 1 (by decide)
        have h2 := hno 2 (by decide)
        omega
      exact ⟨_, c, by omega, hca, hcb, rfl⟩
    · rintro g ⟨c, hc, hca, hcb, rfl⟩
      have hmul := Nat.mul_le_mul_left p.numGroups (Nat.succ_le_of_lt hplane)
      rw [Nat.mul_succ] at hmul
      refine ⟨Int.natCast_nonneg _, ?_, ⟨?_, ?_⟩, ?_, ?_⟩
      · rw [Param.totalGroups]
        omega
      · rw [← hself, hsource]
        omega
      · rw [hdest]
        omega
      · rw [← hself]
        omega
      · rw [← hself, Nat.mul_succ]
        omega

theorem tdiv_inPlane (hrouters : 0 < p.numRouters) (hplanes : 0 < p.numPlanes) {gid : ℤ}
    (hgid : inFirstPlane p gid = true) (i : ℕ) :
    0 ≤ (gid + (i * p.routersPerPlane : ℕ)).tdiv p.numRouters ∧
      (gid + (i * p.routersPerPlane : ℕ)).tdiv p.numRouters < (p.numGroups * (i + 1) : ℕ) ∧
      (0 ≤ gid → ((p.numGroups * i : ℕ) : ℤ) ≤
        (gid + (i * p.routersPerPlane : ℕ)).tdiv p.numRouters) := by
  obtain ⟨hlow, hhigh⟩ : 0 ≤ gid.tdiv p.numRouters ∧ gid.tdiv p.numRouters < p.numGroups := by
    simpa [inFirstPlane] using hgid
  rcases Nat.eq_zero_or_pos i with rfl | hpos
  · simpa using ⟨hlow, hhigh, fun _ => hlow⟩
  have hR : (0 : ℤ) < p.numRouters := by omega
  have hsum : gid + (i * p.routersPerPlane : ℕ) = gid + (p.numGroups * i : ℕ) * p.numRouters := by
    rw [routersPerPlane_eq hplanes]
    push_cast
    ring
  have hfloor : -1 ≤ gid / p.numRouters ∧ gid / p.numRouters < p.numGroups := by
    rw [Int.tdiv_eq_ediv, Int.sign_eq_one_of_pos hR] at hlow hhigh
    split_ifs at hlow hhigh <;> omega
  have hmul : p.numGroups ≤ p.numGroups * i := Nat.le_mul_of_pos_right _ hpos
  have hquot : (gid + (i * p.routersPerPlane : ℕ)) / p.numRouters =
      gid / p.numRouters + (p.numGroups * i : ℕ) := by
    rw [hsum, Int.add_mul_ediv_right _ _ hR.ne']
  have hnonneg : 0 ≤ gid + (i * p.routersPerPlane : ℕ) := by
    rw [← Int.ediv_nonneg_iff_of_pos hR, hquot]
    omega
  rw [Int.tdiv_eq_ediv_of_nonneg hnonneg, hquot, Nat.mul_succ]
  refine ⟨by omega, by omega, fun hgid => ?_⟩
  have hfirst := Int.ediv_nonneg hgid hR.le
  omega

theorem linkedTo_spec {g : ℤ} (h : LinkedTo p files self g) :
    ∃ e ∈ files.inter, ∃ i < p.numPlanes, e.1 + (i * p.routersPerPlane : ℕ) = self ∧
      g = (e.2 + (i * p.routersPerPlane : ℕ)).tdiv p.numRouters := by
  obtain ⟨j, l, hl, hglobal, rfl⟩ := h
  obtain ⟨hl, hends⟩ := List.mem_filter.1 (List.mem_of_mem_drop hl)
  have hself : l.srcGid = self := (of_decide_eq_true hends).2.1
  rw [links, List.mem_append, List.mem_append] at hl
  rcases hl with (hl | hl) | hl
  · obtain ⟨e, -, hl⟩ := List.mem_flatMap.1 hl
    obtain ⟨i, -, rfl⟩ := List.mem_map.1 hl
    cases hglobal
  · obtain ⟨t, -, hl⟩ := List.mem_flatMap.1 hl
    obtain ⟨i, -, rfl⟩ := List.mem_map.1 hl
    cases hglobal
  · obtain ⟨e, he, hl⟩ := List.mem_flatMap.1 hl
    obtain ⟨i, hi, rfl⟩ := List.mem_map.1 hl
    exact ⟨e, he, i, List.mem_range.1 hi, hself, rfl⟩

section

variable (hnet : readLinks p files = some net)
include hnet

theorem LinkedTo.lt {g : ℤ} (h : LinkedTo p files self g) : 0 ≤ g ∧ g < p.totalGroups := by
  obtain ⟨hplanes, hrouters, hfirst, -⟩ := readLinks_eq_some hnet
  obtain ⟨e, he, i, hi, -, rfl⟩ := linkedTo_spec h
  obtain ⟨hlow, hhigh, -⟩ := tdiv_inPlane hrouters hplanes (hfirst e he).2 i
  refine ⟨hlow, hhigh.trans_le ?_⟩
  rw [Param.totalGroups]
  exact_mod_cast Nat.mul_le_mul_left p.numGroups (Nat.succ_le_of_lt hi)

theorem mem_connectedGroups_iff (hself : x.1 < p.totalRouters) (g : ℤ) :
    g ∈ connectedGroups p (net.routers x.1) x.2 (destRouter p x.1 x.2) ↔
      LinkedTo p files x.1 g ∧ IsThird p x g := by
  obtain ⟨-, -, -, hsolid⟩ := readLinks_eq_some hnet
  rw [connectedGroups, Finset.mem_sort, List.mem_toFinset, List.mem_filter, List.mem_map,
    NetMan.mem_globalGroups_iff hsolid hself, LinkedTo,
    IsThird]
  simp only [decide_eq_true_eq]
  exact and_congr_right fun _ => and_comm

theorem goodSelection_onTheWay (hway : OnItsWay p x) (hsel : SelectsOnTheWay p rp net x) :
    GoodSelection p net x ↔ ThirdGroupLinked p files x := by
  obtain ⟨hplanes, -, -, -⟩ := readLinks_eq_some hnet
  obtain ⟨-, hne, hsame, hself, -⟩ := hsel
  have hsome : x.2.intmGrpId ≠ none := by
    have hlast : x.2.lastHop ≠ .terminalHop := fun hterm => hself (hway.first hterm).1
    refine (hway.later hlast).resolve_right fun heq => hne ?_
    rw [hsame, heq, destRouter_congr hplanes hsame.symm rfl]
  have hplane : ∀ g, InPlane p x.2.originRouterId g ↔ InPlane p x.1 g := by
    intro g
    rw [InPlane, InPlane, planeId_eq hplanes, planeId_eq hplanes, hsame]
  rw [goodSelection_iff ⟨fun hnone => absurd hnone hsome, fun heq => absurd heq hself⟩,
    intmCandidates,
    if_neg hsome, ThirdGroupLinked]
  simp only [mem_connectedGroups_iff hnet hway.self_lt]
  refine and_congr_right fun _ => forall_congr' fun g => ?_
  rw [and_imp]
  refine forall₂_congr fun hlinked hthird => ?_
  rw [← hplane]
  exact ⟨fun h => h.inPlane, fun h => ⟨(hlinked.lt hnet).1, (hlinked.lt hnet).2, hthird, h⟩⟩

theorem selectionGood_iff (hway : OnItsWay p x) :
    SelectionGood p rp net x ↔ EnoughGroups p rp files net x := by
  obtain ⟨hplanes, -, -, -⟩ := readLinks_eq_some hnet
  rw [SelectionGood, EnoughGroups, or_imp]
  exact and_congr (forall_congr' fun hsel => goodSelection_origin hplanes hway hsel)
    (forall_congr' fun hsel => goodSelection_onTheWay hnet hway hsel)

end

/-- **When there is an intermediate group to select**, wherever a packet comes. -/
theorem select_intermediate_group_iff (hnet : readLinks p files = some net) {x₀ : ℕ × Msg}
    (hstart : Injected p x₀) (envs : List RoutingEnv) :
    (journey p rp net).Along (SelectionGood p rp net) x₀ envs ↔
      (journey p rp net).Along (EnoughGroups p rp files net) x₀ envs := by
  obtain ⟨hplanes, -, -, -⟩ := readLinks_eq_some hnet
  have hstep : ∀ x env y, OnItsWay p x → (journey p rp net).step x env = some y → OnItsWay p y :=
    fun _ _ _ hway h => hop_onItsWay hway h
  exact Machine.along_congr hstep (fun _ => selectionGood_iff hnet) (hstart.onItsWay hplanes) envs

end

/-! ### Two groups and three -/

/-- A packet from the first router to a terminal. -/
def packetTo (term : ℕ) : ℕ × Msg :=
  (0, { (default : Msg) with lastHop := .terminalHop, dfdallyDestTerminalId := term })

def minimalParam : RoutingParam where
  routing := .minimal
  scoring := .alpha
  adaptiveThreshold := 0
  globalKPicks := 2

/-- Three groups of one router. -/
def threeGroupParam : Param :=
  { unevenParam with numGroups := 3, numRouters := 1, numGlobalChannels := 2, planes_eq :=
    unevenParam.planes_eq }

/-- All routers are joined. -/
def threeGroupFiles : LinkFiles where
  intra := []
  inter := [(0, 1), (0, 2), (1, 0), (1, 2), (2, 0), (2, 1)]
  failures := none

/-- With three groups the first router selects the third one. -/
theorem thirdGroup_selected : ∃ net, readLinks threeGroupParam threeGroupFiles = some net ∧
    SelectsAtOrigin threeGroupParam (packetTo 1) ∧
    (journey threeGroupParam minimalParam net).Along
      (SelectionGood threeGroupParam minimalParam net) (packetTo 1) [] := by
  have hsome : (readLinks threeGroupParam threeGroupFiles).isSome = true := by decide +kernel
  obtain ⟨net, hnet⟩ := Option.isSome_iff_exists.1 hsome
  have hstart : Injected threeGroupParam (packetTo 1) :=
    ⟨⟨0, by decide, 0, by decide, rfl⟩, rfl, rfl, rfl, by decide⟩
  refine ⟨net, hnet, ⟨by decide, rfl, rfl⟩, (select_intermediate_group_iff hnet hstart []).2 ?_⟩
  exact ⟨fun _ => by decide, fun hsel => nomatch hsel.1⟩

/-- With two groups the first router has nothing to select from, so minimal routing fails. -/
theorem noThirdGroup : ∃ net, readLinks (twoGroupParam 1) (twoGroupFiles 1) = some net ∧
    Injected (twoGroupParam 1) (packetTo 2) ∧
    intmCandidates (twoGroupParam 1) (net.routers 0) 0 (packetTo 2).2
      (destRouter (twoGroupParam 1) 0 (packetTo 2).2) = [] ∧
    ∀ env, doDfdallyRouting (twoGroupParam 1) minimalParam (net.routers 0) env 0
      (atRouter (packetTo 2).2) (destRouter (twoGroupParam 1) 0 (packetTo 2).2) =
        .error .outOfRange := by
  have hsome : (readLinks (twoGroupParam 1) (twoGroupFiles 1)).isSome = true := by decide +kernel
  obtain ⟨net, hnet⟩ := Option.isSome_iff_exists.1 hsome
  refine ⟨net, hnet, ⟨⟨0, by decide, 0, by decide, rfl⟩, rfl, rfl, rfl, by decide⟩, rfl,
    fun env => rfl⟩

end CodesSim.Dally
