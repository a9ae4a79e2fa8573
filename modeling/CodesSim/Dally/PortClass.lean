import CodesSim.Dally.Delivery
import CodesSim.Dally.Links

/-!
# The classes of the ports of a router

The connection manager gives a router its ports by type: `intraGrpRadix` ports for local links, then
`globalRadix` ports for global ones, then those for terminals.  `router_packet_send` (`portClass`)
and `get_rtr_bandwidth_consumption` (`accountedClass`) find the class of a port again, but they
count `numGlobalChannels` ports for global links and leave out the parallel connections.  So the
classes are those of the connections exactly when no router has more global links than that, and,
where there are terminals, no room for more (`classesAgree_iff`).  The reader computes the radices
as `int` products; they are exact here, so the layouts are those whose products fit in an `int`.
-/

namespace CodesSim.Dally

open NetMan (numLinks)

/-- A type of connections of the network manager. -/
def typeOf : NetMan.ConnectionType → ConnectionType
  | .connLocal => .connLocal
  | .connGlobal => .connGlobal
  | .connTerminal => .connTerminal
  | .connInjection => .connInjection

/-- The class of a port in `get_rtr_bandwidth_consumption`; `none` is the failed assertion. -/
def accountedClass (p : Param) (port : ℕ) : Option ConnectionType :=
  if port < p.intraGrpRadix + p.numGlobalChannels + p.cnRadix then
    if port < p.intraGrpRadix then some .connLocal
    else if port < p.intraGrpRadix + p.numGlobalChannels then some .connGlobal
    else some .connTerminal
  else none

/-- **Every port is classified by the type of its connection.** -/
def ClassesAgree (p : Param) (net : NetMan.Network) : Prop :=
  ∀ i < p.totalRouters, ∀ (port : ℕ) (ty : NetMan.ConnectionType),
    (net.routers i).getPortType port = some ty →
      portClass p port = typeOf ty ∧ accountedClass p port = some (typeOf ty)

/-- No router has more global links than there are global channels, and if it has terminals the
channels are not doubled. -/
def ChannelsFit (p : Param) (files : LinkFiles) : Prop :=
  ∀ i < p.totalRouters, numLinks (links p files) .connGlobal i ≤ p.numGlobalChannels ∧
    (p.cnRadix = 0 ∨ p.numParallelSwitchConns = 1 ∨ p.numGlobalChannels = 0)

variable {p : Param} {files : LinkFiles} {net : NetMan.Network}

theorem globalRadix_eq_iff : p.globalRadix = p.numGlobalChannels ↔
    p.numParallelSwitchConns = 1 ∨ p.numGlobalChannels = 0 := by
  rw [Param.globalRadix]
  exact mul_right_eq_self₀

/-- **When the classes of the ports are right.** -/
theorem classesAgree_iff (h : readLinks p files = some net) :
    ClassesAgree p net ↔ ChannelsFit p files := by
  obtain ⟨hplanes, -, -, hnet⟩ := readLinks_eq_some h
  have hports := fun i (hi : i < p.totalRouters) =>
    NetMan.getPortType_eq (fun t _ => countP_toTerminal files t) hnet hi
  refine forall₂_congr fun i hi => ?_
  obtain ⟨htype, hlocal, hglobal, hterminal⟩ := hports i hi
  rw [numLinks_terminal files hplanes hi] at hterminal
  have hl : p.networkParam.numLcPr = p.intraGrpRadix := rfl
  have hg : p.networkParam.numGcPr = p.globalRadix := rfl
  rw [hl] at hlocal
  rw [hg] at hglobal
  simp only [htype, NetMan.typeOfPort, numLinks_terminal files hplanes hi, hl, hg]
  rw [← globalRadix_eq_iff]
  generalize numLinks (links p files) .connLocal i = nl at hlocal ⊢
  generalize numLinks (links p files) .connGlobal i = ng at hglobal ⊢
  constructor
  · intro hagree
    constructor
    · -- the first global link beyond the channels
      by_contra hmore
      have hclass := (hagree (p.intraGrpRadix + p.numGlobalChannels) .connGlobal (by
        rw [if_neg (by omega), if_pos (by omega)])).1
      rw [portClass, if_neg (by omega), if_neg (by omega)] at hclass
      cases hclass
    · by_contra hmore
      rcases Nat.lt_or_gt_of_ne fun heq : p.globalRadix = p.numGlobalChannels =>
        hmore (.inr heq) with hless | hmany
      · -- the first link to a terminal
        have hclass := (hagree (p.intraGrpRadix + p.globalRadix) .connTerminal (by
          rw [if_neg (by omega), if_neg (by omega), if_pos (by omega)])).1
        rw [portClass, if_neg (by omega), if_pos (by omega)] at hclass
        cases hclass
      · -- the last link to a terminal
        have hclass := (hagree (p.intraGrpRadix + p.globalRadix + (p.cnRadix - 1)) .connTerminal (by
          rw [if_neg (by omega), if_neg (by omega), if_pos (by omega)])).2
        rw [accountedClass, if_neg (by omega)] at hclass
        cases hclass
  · rintro ⟨hfew, hroom⟩ port ty hty
    rw [portClass, accountedClass]
    split_ifs at hty with h1 h2 h3
    · cases hty
      rw [if_pos (by omega), if_pos (by omega), if_pos (by omega)]
      exact ⟨rfl, rfl⟩
    · cases hty
      rw [if_neg (by omega), if_pos (by omega), if_pos (by omega), if_neg (by omega),
        if_pos (by omega)]
      exact ⟨rfl, rfl⟩
    · cases hty
      rw [if_neg (by omega), if_neg (by omega), if_pos (by omega), if_neg (by omega),
        if_neg (by omega)]
      exact ⟨rfl, rfl⟩

/-! ### Two groups of two routers -/

/-- Two groups of two routers with a terminal each. -/
def twoGroupParam (parallel : ℕ) : Param :=
  { unevenParam with
    numGroups := 2, numGlobalChannels := 1, numParallelSwitchConns := parallel,
    planes_eq := unevenParam.planes_eq }

/-- The first routers of the groups are joined, and all links are `parallel`. -/
def twoGroupFiles (parallel : ℕ) : LinkFiles where
  intra := List.replicate parallel (0, 1) ++ List.replicate parallel (1, 0)
  inter := List.replicate parallel (0, 2) ++ List.replicate parallel (2, 0)
  failures := none

/-- With single connections the classes are right. -/
theorem classesAgree_iff_single : ∃ net, readLinks (twoGroupParam 1) (twoGroupFiles 1) = some net ∧
    (ClassesAgree (twoGroupParam 1) net ↔ ChannelsFit (twoGroupParam 1) (twoGroupFiles 1)) := by
  have hsome : (readLinks (twoGroupParam 1) (twoGroupFiles 1)).isSome = true := by decide +kernel
  obtain ⟨net, hnet⟩ := Option.isSome_iff_exists.1 hsome
  exact ⟨net, hnet, classesAgree_iff hnet⟩

/-- With double connections the second global link of a router is taken for one to a terminal. -/
theorem globalPort_misclassified : ∃ net,
    readLinks (twoGroupParam 2) (twoGroupFiles 2) = some net ∧
      (net.routers 0).getPortType 3 = some .connGlobal ∧
      portClass (twoGroupParam 2) 3 = .connTerminal ∧ ¬ ClassesAgree (twoGroupParam 2) net := by
  have hsome : (readLinks (twoGroupParam 2) (twoGroupFiles 2)).map (fun net =>
      (net.routers 0).getPortType 3) = some (some .connGlobal) := by decide +kernel
  obtain ⟨net, hnet, htype⟩ := Option.map_eq_some_iff.1 hsome
  refine ⟨net, hnet, htype, rfl, fun hagree => ?_⟩
  cases (hagree 0 (by decide) 3 _ htype).1

end CodesSim.Dally
