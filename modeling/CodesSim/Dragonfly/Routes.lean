import CodesSim.Dragonfly.Routing
import Mathlib.Data.Option.Basic
import Mathlib.Order.Basic

/-!
# The routes of a dragonfly

`OnWay` is what holds of a packet at each router: how many global hops bring it to which of its
groups, and that after a local hop it stands where its group is left.  Whatever is chosen for it
(`Chosen`), its next buffer comes after those that it has been in (`rank`), and it is still on its
way (`OnWay.route`).
-/

namespace CodesSim.Dragonfly

/-- A buffer of a router: a channel of a port. -/
structure Buffer where
  (router port chan : ℕ)

/-- A packet on its way: the router it has come to, and the buffers it has been in. -/
structure Packet where
  router : ℕ
  msg : Msg
  hops : List Buffer

/-- What a hop depends on beside the packet: the load of the router, and the draw. -/
structure Around where
  load : Load
  draw : ℕ

namespace Param

variable (p : Param)

/-- A draw of `tw_rand_integer(lp->rng, 1, num_real_groups - 1)`. -/
def Drawn (l : Around) : Prop := p.numRealGroups = 1 ∨ 1 ≤ l.draw ∧ l.draw < p.numRealGroups

/-- Where a port of a router leads. -/
def Leads (router port next : ℕ) : Prop :=
  port < p.numRouters ∧ next = p.groupId router * p.numRouters + port ∨
    ∃ i < p.numGlobalChannels, port = p.numRouters + i ∧ next = p.globalChannel router i

/-- The next stop of a queued message. -/
def nextStop (router : ℕ) (chunk : Msg) (path : Path) (dest : ℕ) : Stop :=
  if dest = router then .terminal
  else if p.groupId router = p.groupId dest then .router dest
  else
    let destGroupId := p.destGroup router chunk path dest
    let connecting := p.getRouterFromGroupID destGroupId (p.groupId router)
    .router (if connecting = router then p.getRouterFromGroupID (p.groupId router) destGroupId
      else connecting)

/-- The place of a buffer in the order in which a packet comes to them. -/
def rank (hop : Buffer) : ℕ := 2 * hop.chan + if hop.port < p.numRouters then 0 else 1

/-- The place in this order that a packet has come to. -/
def stage (msg : Msg) : ℕ := 2 * msg.myGHop + if msg.lastHop = .local then 1 else 0

/-- A router is where its group is left on a path, or it is the destination. -/
def Settled (router : ℕ) (msg : Msg) (path : Path) (dest : ℕ) : Prop :=
  if p.groupId router = p.groupId dest then router = dest
  else p.getRouterFromGroupID (p.destGroup router msg path dest) (p.groupId router) = router

variable {p} {routing : Option RoutingAlgo} {origin t dest router : ℕ} {msg : Msg} {path : Path}
  {intm : Option ℕ} {stop : Stop} {x : Packet} {l : Around}

/-! ### What is chosen -/

/-- A message with what is chosen for it. -/
def onPath (msg : Msg) (path : Path) (intm : Option ℕ) : Msg :=
  { msg with pathType := some path, intmGroupId := intm }

/-- What may be chosen for a message. -/
structure Chosen (p : Param) (origin dest router : ℕ) (msg : Msg) (path : Path) (intm : Option ℕ)
    (stop : Stop) : Prop where
  stop_eq : stop = p.nextStop router (onPath msg path intm) path dest
  kept : msg.lastHop ≠ .terminal → msg.pathType = some path ∧ msg.intmGroupId = intm
  drawn : ∀ i ∈ intm, i ≠ p.groupId origin ∧ i < p.numRealGroups
  minimal : path = .minimal → intm = none

/-- What holds of a packet on its way between two routers. -/
structure OnWay (p : Param) (routing : Option RoutingAlgo) (origin t dest : ℕ)
    (x : Packet) : Prop where
  dest_eq : x.msg.destTerminal = t
  router_eq : t / p.numCn = dest
  origin_eq : x.msg.originRouterId = origin
  real : p.groupId x.router < p.numRealGroups
  fresh : x.msg.lastHop = .terminal → x.router = origin ∧ x.msg.myGHop = 0 ∧
    x.msg.pathType = none ∧ x.msg.intmGroupId = none
  path : x.msg.lastHop ≠ .terminal → ∃ path, x.msg.pathType = some path ∧
    (path = .minimal → x.msg.intmGroupId = none) ∧ ∀ q, routing = some (.path q) → path = q
  drawn : ∀ i ∈ x.msg.intmGroupId, i ≠ p.groupId origin ∧ i < p.numRealGroups
  group : x.msg.myGHop = 0 ∧ p.groupId x.router = p.groupId origin ∨
    x.msg.myGHop = 1 ∧ p.groupId x.router ≠ p.groupId origin ∧
      (p.groupId x.router = p.groupId dest ∨ x.msg.intmGroupId = some (p.groupId x.router)) ∨
    x.msg.myGHop = 2 ∧ p.groupId x.router = p.groupId dest
  lHop : x.msg.myGHop = 0 → x.msg.myLHop = if x.msg.lastHop = .local then 1 else 0
  /-- After a local hop a packet is at its destination, or at the router with the link. -/
  settled : x.msg.lastHop = .local → ∀ path ∈ x.msg.pathType, p.Settled x.router x.msg path dest
  sorted : (x.hops.map p.rank).Pairwise (· < ·)
  below : ∀ hop ∈ x.hops, p.rank hop < stage x.msg

theorem farEnd_eq (g g' : ℕ) : p.farEnd g g' = p.getRouterFromGroupID g g' := by
  simp only [farEnd, getRouterFromGroupID]
  split_ifs <;> rfl

theorem getNumHops_le (router dest : ℕ) : p.getNumHops router dest ≤ 4 := by
  simp only [getNumHops]
  split_ifs <;> omega

theorem getNumHops_le_two (h : p.groupId router = p.groupId dest) :
    p.getNumHops router dest ≤ 2 := by
  simp only [getNumHops, if_pos h]
  split_ifs <;> omega

theorem numNonminHops_le (hp : 2 ≤ p.numRouters) (router : ℕ) (msg : Msg) (dest : ℕ) :
    p.numNonminHops router msg dest ≤ 6 := by
  rw [numNonminHops]
  cases msg.intmGroupId with
  | none => exact Nat.le_refl 6
  | some intm =>
    have hown := getNumHops_le_two (p := p)
      (groupId_getRouterFromGroupID (by omega) intm (p.groupId router)).symm
    have hrest := getNumHops_le (p := p) (p.getRouterFromGroupID intm (p.groupId router)) dest
    dsimp only
    omega

theorem destGroup_congr {router' : ℕ} (h : p.groupId router' = p.groupId router) :
    p.destGroup router' msg path dest = p.destGroup router msg path dest := by
  rw [destGroup, destGroup, h]

/-- `get_next_stop` may note the intermediate group, and goes by what is noted. -/
theorem getNextStop_eq (router : ℕ) (msg : Msg) (path : Path) (dest intmId : ℕ) :
    ∃ chunk, p.getNextStop router msg path dest intmId =
        (p.nextStop router chunk path dest, chunk) ∧
      (chunk = msg ∨ p.groupId router ≠ p.groupId dest ∧ msg.lastHop = .terminal ∧
        path = .nonMinimal ∧ chunk = { msg with intmGroupId := some intmId }) := by
  simp only [getNextStop, nextStop, farEnd_eq]
  by_cases hdest : dest = router
  · exact ⟨msg, by rw [if_pos hdest, if_pos hdest], .inl rfl⟩
  by_cases hgroup : p.groupId router = p.groupId dest
  · exact ⟨msg, by rw [if_neg hdest, if_neg hdest, if_pos hgroup, if_pos hgroup], .inl rfl⟩
  refine ⟨withIntm msg path intmId, ?_, ?_⟩
  · rw [if_neg hdest, if_neg hdest, if_neg hgroup, if_neg hgroup]
  rw [withIntm]
  split_ifs with h
  · exact .inr ⟨hgroup, h.1, h.2, rfl⟩
  · exact .inl rfl

/-- A path without an intermediate group is the minimal one. -/
theorem nextStop_of_none (h : msg.intmGroupId = none) (router : ℕ) (path path' : Path) (dest : ℕ) :
    p.nextStop router msg path dest = p.nextStop router msg path' dest := by
  simp only [nextStop, destGroup, h]

/-- The path type of the message does not matter. -/
theorem nextStop_onPath (router : ℕ) (msg : Msg) (path : Path) (dest : ℕ) :
    p.nextStop router (onPath msg path msg.intmGroupId) path dest =
      p.nextStop router msg path dest := rfl

/-- A draw is another group, where there is another. -/
theorem draw_ne (hdraw : p.Drawn l) {g g' : ℕ} (hg : g < p.numRealGroups)
    (hg' : g' < p.numRealGroups) (hne : g ≠ g') : (g + l.draw) % p.numRealGroups ≠ g ∧
      (g + l.draw) % p.numRealGroups < p.numRealGroups := by
  refine ⟨?_, Nat.mod_lt _ (Nat.zero_lt_of_lt hg)⟩
  obtain hone | ⟨hpos, hlt⟩ := hdraw
  · omega
  by_cases hwrap : g + l.draw < p.numRealGroups
  · rw [Nat.mod_eq_of_lt hwrap]
    omega
  · rw [Nat.mod_eq_sub_mod (Nat.le_of_not_lt hwrap), Nat.mod_eq_of_lt (by omega)]
    omega

/-- Both choices of `do_adaptive_routing`. -/
theorem doAdaptiveRouting_spec (hp : 2 ≤ p.numRouters) (s : Load) (intmId : ℕ)
    (hfresh : msg.lastHop = .terminal ∨ msg.pathType = some .minimal)
    (hnone : msg.intmGroupId = none)
    (hintm : msg.lastHop = .terminal → p.groupId router ≠ p.groupId dest →
      intmId ≠ p.groupId origin ∧ intmId < p.numRealGroups) :
    ∃ stop path intm, p.doAdaptiveRouting s router msg dest intmId =
      some (stop, onPath msg path intm) ∧ Chosen p origin dest router msg path intm stop := by
  obtain ⟨c₁, h₁, rfl | ⟨-, -, hpath, -⟩⟩ := getNextStop_eq (p := p) router msg .minimal dest intmId
  swap
  · cases hpath
  obtain ⟨c₂, h₂, hc₂⟩ := getNextStop_eq (p := p) router c₁ .nonMinimal dest intmId
  have hassert : ¬ (6 < p.numNonminHops router c₂ dest ∨ p.radix = 1) := by
    have hhops := numNonminHops_le hp router c₂ dest
    rw [radix]
    omega
  simp only [doAdaptiveRouting, h₁, h₂, if_neg hassert]
  by_cases hle : portCount s (p.getOutputPort router c₁ (p.nextStop router c₁ .minimal dest)) ≤
      portCount s (p.getOutputPort router c₁ (p.nextStop router c₂ .nonMinimal dest))
  · have hstop := nextStop_onPath (p := p) router c₁ .minimal dest
    rw [hnone] at hstop
    refine ⟨p.nextStop router c₁ .minimal dest, .minimal, none, ?_, hstop.symm,
      fun hlast => ⟨hfresh.resolve_left hlast, hnone⟩, nofun, fun _ => rfl⟩
    rw [if_pos hle]
    obtain rfl | ⟨-, -, -, rfl⟩ := hc₂ <;> rfl
  rw [if_neg hle]
  obtain rfl | ⟨hgroup, hlast, -, rfl⟩ := hc₂
  · -- without an intermediate group both paths have the same port
    rw [nextStop_of_none hnone router .nonMinimal .minimal] at hle
    exact absurd (Int.le_refl _) hle
  · refine ⟨_, .nonMinimal, some intmId, rfl, rfl, fun h => absurd hlast h, ?_, nofun⟩
    rintro i ⟨⟩
    exact hintm hlast hgroup

/-- The choice of a path that is given. -/
theorem getNextStop_spec {intmId : ℕ} (hkept : msg.lastHop ≠ .terminal → msg.pathType = some path)
    (hmin : path = .minimal → msg.intmGroupId = none)
    (hold : ∀ i ∈ msg.intmGroupId, i ≠ p.groupId origin ∧ i < p.numRealGroups)
    (hintm : msg.lastHop = .terminal → p.groupId router ≠ p.groupId dest →
      intmId ≠ p.groupId origin ∧ intmId < p.numRealGroups) :
    ∃ stop intm, p.getNextStop router { msg with pathType := some path } path dest intmId =
      (stop, onPath msg path intm) ∧ Chosen p origin dest router msg path intm stop := by
  obtain ⟨chunk, hnext, hchunk⟩ := getNextStop_eq (p := p) router { msg with pathType := some path }
    path dest intmId
  obtain rfl | ⟨hgroup, hlast, rfl, rfl⟩ := hchunk
  · exact ⟨_, msg.intmGroupId, hnext, rfl, fun hlast => ⟨hkept hlast, rfl⟩, hold, hmin⟩
  · refine ⟨_, some intmId, hnext, rfl, fun h => absurd hlast h, ?_, nofun⟩
    rintro i ⟨⟩
    exact hintm hlast hgroup

/-- **Something is chosen** for a packet on its way. -/
theorem OnWay.chosen (h : OnWay p routing origin t dest x) (hp : 2 ≤ p.numRouters)
    (hdest : p.groupId dest < p.numRealGroups) (hdraw : p.Drawn l) (halgo : routing ≠ none) :
    ∃ stop path intm, p.chooseStop routing l.load x.router x.msg dest
        ((p.groupId x.router + l.draw) % p.numRealGroups) = some (stop, onPath x.msg path intm) ∧
      Chosen p origin dest x.router x.msg path intm stop ∧
      ∀ q, routing = some (.path q) → path = q := by
  have hdrawn := draw_ne hdraw h.real hdest
  -- the draw matters at the first router only
  have hintm : x.msg.lastHop = .terminal → p.groupId x.router ≠ p.groupId dest →
      (p.groupId x.router + l.draw) % p.numRealGroups ≠ p.groupId origin ∧
        (p.groupId x.router + l.draw) % p.numRealGroups < p.numRealGroups :=
    fun hlast hne => (h.fresh hlast).1 ▸ hdrawn hne
  have hpath (hlast : x.msg.lastHop ≠ .terminal) (hne : x.msg.pathType ≠ some .nonMinimal) :
      x.msg.pathType = some .minimal := by
    obtain ⟨path, hpath, -⟩ := h.path hlast
    cases path with
    | minimal => exact hpath
    | nonMinimal => exact absurd hpath hne
  have hnone (hmin : x.msg.lastHop ≠ .terminal → x.msg.pathType = some .minimal) :
      x.msg.intmGroupId = none := by
    by_cases hlast : x.msg.lastHop = .terminal
    · exact (h.fresh hlast).2.2.2
    · obtain ⟨path, hsome, hmin', -⟩ := h.path hlast
      exact hmin' (Option.some.inj (hsome.symm.trans (hmin hlast)))
  rw [chooseStop]
  split_ifs with hprog hadaptive
  · have hmin (hlast : x.msg.lastHop ≠ .terminal) := hpath hlast hprog.2.1
    obtain ⟨stop, path, intm, hchoice, hchosen⟩ := doAdaptiveRouting_spec hp l.load _
      (or_iff_not_imp_left.2 hmin) (hnone hmin) hintm
    exact ⟨stop, path, intm, hchoice, hchosen, fun q hq => by rw [hprog.1] at hq; cases hq⟩
  · obtain ⟨stop, path, intm, hchoice, hchosen⟩ := doAdaptiveRouting_spec hp l.load _
      (.inl hadaptive.1) (h.fresh hadaptive.1).2.2.2 hintm
    exact ⟨stop, path, intm, hchoice, hchosen, fun q hq => by rw [hadaptive.2] at hq; cases hq⟩
  -- otherwise the path is given, by the algorithm or by the message
  have hgiven : ∃ path, givenPath routing x.msg = some path ∧
        (x.msg.lastHop ≠ .terminal → x.msg.pathType = some path) ∧
        ∀ q, routing = some (.path q) → path = q := by
    by_cases hlast : x.msg.lastHop = .terminal
    · have hfresh := h.fresh hlast
      match routing with
      | some (.path q) => exact ⟨q, rfl, fun h => absurd hlast h, by rintro q' ⟨⟩; rfl⟩
      | some .adaptive => exact absurd ⟨hlast, rfl⟩ hadaptive
      | some .progAdaptive =>
        refine absurd ⟨rfl, by rw [hfresh.2.2.1]; nofun, ?_⟩ hprog
        rw [h.origin_eq, hfresh.1]
      | none => exact absurd rfl halgo
    · obtain ⟨path, hsome, -, hq⟩ := h.path hlast
      refine ⟨path, ?_, fun _ => hsome, hq⟩
      match routing with
      | some (.path q) => rw [hq q rfl, givenPath]
      | some .adaptive => exact hsome
      | some .progAdaptive => exact hsome
      | none => exact absurd rfl halgo
  obtain ⟨path, hgiven, hkept, hq⟩ := hgiven
  have hmin (hpathmin : path = .minimal) : x.msg.intmGroupId = none :=
    hnone fun hlast => hpathmin ▸ hkept hlast
  obtain ⟨stop, intm, hnext, hchosen⟩ := getNextStop_spec hkept hmin h.drawn hintm
  refine ⟨stop, path, intm, ?_, hchosen, hq⟩
  rw [hgiven, Option.map_some, hnext]

/-! ### Where a packet goes -/

/-- A hop inside a group takes the port of the router. -/
theorem getOutputPort_local (msg : Msg) (hp : 0 < p.numRouters) {next : ℕ}
    (hg : p.groupId next = p.groupId router) :
    p.getOutputPort router msg (.router next) < p.numRouters ∧
      p.Leads router (p.getOutputPort router msg (.router next)) next := by
  have hport : p.getOutputPort router msg (.router next) = next % p.numRouters :=
    if_neg (not_not.2 hg)
  have hlt := Nat.mod_lt next hp
  rw [hport]
  refine ⟨hlt, .inl ⟨hlt, ?_⟩⟩
  rw [← hg]
  exact (Nat.div_add_mod' next p.numRouters).symm

/-- A hop to a group takes the port of the channel to it. -/
theorem getOutputPort_global (hp : 0 < p.numRouters) {g g' : ℕ} (hne : g ≠ g')
    (hg : g < p.numGroups) (hg' : g' < p.numGroups) (msg : Msg) :
    ∃ i < p.numGlobalChannels, p.getOutputPort (p.getRouterFromGroupID g' g) msg
        (.router (p.getRouterFromGroupID g g')) = p.numRouters + i ∧
      p.getRouterFromGroupID g g' = p.globalChannel (p.getRouterFromGroupID g' g) i := by
  refine ⟨p.slot g g' / p.numRouters, slot_div_lt hne hg hg', ?_, ?_⟩
  · simp only [getOutputPort, groupId_getRouterFromGroupID hp, slot]
    rw [if_pos hne.symm]
  · rw [globalChannel_eq, groupId_getRouterFromGroupID hp, mod_getRouterFromGroupID, Nat.mul_comm,
      Nat.mod_add_div, target_slot hne]

section

variable (h : OnWay p routing origin t dest x)
include h

/-- A group that a packet leaves for is another one. -/
theorem OnWay.destGroup (hdest : p.groupId dest < p.numRealGroups)
    (hc : Chosen p origin dest x.router x.msg path intm stop)
    (hne : p.groupId x.router ≠ p.groupId dest) {g' : ℕ}
    (hg' : p.destGroup x.router (onPath x.msg path intm) path dest = g') :
    g' ≠ p.groupId x.router ∧ g' < p.numRealGroups ∧ (g' = p.groupId dest ∨
      p.groupId x.router = p.groupId origin ∧ intm = some g') := by
  rw [Param.destGroup] at hg'
  cases intm with
  | none => exact hg' ▸ ⟨hne.symm, hdest, .inl rfl⟩
  | some i =>
    have hi := hc.drawn i rfl
    simp only [onPath, h.origin_eq] at hg'
    split_ifs at hg' with hfrom
    · exact hg' ▸ ⟨hfrom.2 ▸ hi.1, hi.2, .inr ⟨hfrom.2, rfl⟩⟩
    · exact hg' ▸ ⟨hne.symm, hdest, .inl rfl⟩

/-- The next stop of a packet: its terminal, a router of its group, or one of another group. -/
theorem OnWay.nextStop_cases (hp : 0 < p.numRouters) (hdest : p.groupId dest < p.numRealGroups)
    (hc : Chosen p origin dest x.router x.msg path intm stop) :
    stop = .terminal ∧ x.router = dest ∨
    (∃ next, stop = .router next ∧ x.router ≠ dest ∧ x.msg.lastHop ≠ .local ∧
      ¬p.Settled x.router (onPath x.msg path intm) path dest ∧
      p.groupId next = p.groupId x.router ∧ p.Settled next (onPath x.msg path intm) path dest) ∨
    ∃ g', stop = .router (p.getRouterFromGroupID (p.groupId x.router) g') ∧ x.router ≠ dest ∧
      x.router = p.getRouterFromGroupID g' (p.groupId x.router) ∧ g' ≠ p.groupId x.router ∧
      g' < p.numRealGroups ∧ p.groupId x.router ≠ p.groupId dest ∧ (g' = p.groupId dest ∨
        p.groupId x.router = p.groupId origin ∧ intm = some g') := by
  by_cases hhere : dest = x.router
  · exact .inl ⟨by rw [hc.stop_eq, nextStop, if_pos hhere], hhere.symm⟩
  by_cases hgroup : p.groupId x.router = p.groupId dest
  · refine .inr (.inl ⟨dest, ?_, Ne.symm hhere, fun hlocal => ?_, ?_, hgroup.symm, ?_⟩)
    · rw [hc.stop_eq, nextStop, if_neg hhere, if_pos hgroup]
    · obtain ⟨path, hpath, -⟩ := h.path (by rw [hlocal]; nofun)
      have hsettled := h.settled hlocal path hpath
      rw [Settled, if_pos hgroup] at hsettled
      exact hhere hsettled.symm
    · rw [Settled, if_pos hgroup]
      exact Ne.symm hhere
    · rw [Settled, if_pos rfl]
  have hleave := h.destGroup hdest hc hgroup rfl
  by_cases hlink : p.getRouterFromGroupID (p.destGroup x.router (onPath x.msg path intm) path dest)
      (p.groupId x.router) = x.router
  · refine .inr (.inr ⟨_, ?_, Ne.symm hhere, hlink.symm, hleave.1, hleave.2.1, hgroup, hleave.2.2⟩)
    rw [hc.stop_eq, nextStop, if_neg hhere, if_neg hgroup]
    simp only [if_pos hlink]
  · have hsame := groupId_getRouterFromGroupID hp
      (p.destGroup x.router (onPath x.msg path intm) path dest) (p.groupId x.router)
    refine .inr (.inl ⟨_, ?_, Ne.symm hhere, fun hlocal => hlink ?_, ?_, hsame, ?_⟩)
    · rw [hc.stop_eq, nextStop, if_neg hhere, if_neg hgroup]
      simp only [if_neg hlink]
    · -- after a local hop the packet is where its group is left
      have hkept := hc.kept (by rw [hlocal]; nofun)
      have hsettled := h.settled hlocal path hkept.1
      rw [Settled, if_neg hgroup] at hsettled
      have honPath : onPath x.msg path intm = x.msg := by rw [onPath, ← hkept.1, ← hkept.2]
      rw [honPath]
      exact hsettled
    · rwa [Settled, if_neg hgroup]
    · rw [Settled, hsame, if_neg hgroup, destGroup_congr hsame]

/-- The channel of a hop. -/
theorem OnWay.outputChan_local
    (hlocal : x.msg.lastHop ≠ .local) {port : ℕ} (hport : port < p.numRouters) :
    p.outputChan x.msg port = x.msg.myGHop := by
  rw [outputChan, if_pos hport]
  obtain ⟨h0, -⟩ | ⟨h1, -⟩ | ⟨h2, -⟩ := h.group
  · rw [h0, if_neg (by decide), if_neg (by decide), h.lHop h0, if_neg hlocal]
  · rw [if_pos h1, h1]
  · rw [if_neg (by omega), if_pos h2, h2]

/-- A new hop comes after the others. -/
theorem OnWay.sorted_append (hop : Buffer) (msg : Msg)
    (hlow : stage x.msg ≤ p.rank hop) (hhigh : p.rank hop < stage msg) :
    ((x.hops ++ [hop]).map p.rank).Pairwise (· < ·) ∧
      ∀ hop' ∈ x.hops ++ [hop], p.rank hop' < stage msg := by
  constructor
  · rw [List.map_append, List.pairwise_append]
    refine ⟨h.sorted, List.pairwise_singleton _ _, ?_⟩
    simp only [List.map_cons, List.map_nil, List.mem_singleton, List.mem_map]
    rintro _ ⟨hop', hmem, rfl⟩ _ rfl
    exact (h.below hop' hmem).trans_le hlow
  · intro hop' hmem
    obtain hmem | hmem := List.mem_append.1 hmem
    · exact (h.below hop' hmem).trans (hlow.trans_lt hhigh)
    · rwa [List.mem_singleton.1 hmem]

/-- A hop inside a group. -/
theorem OnWay.after_local (hc : Chosen p origin dest x.router x.msg path intm stop)
    (hq : ∀ q, routing = some (.path q) → path = q) (hlocal : x.msg.lastHop ≠ .local)
    {next port : ℕ} (hport : port < p.numRouters) (hg : p.groupId next = p.groupId x.router)
    (hsettled : p.Settled next (onPath x.msg path intm) path dest) :
    OnWay p routing origin t dest ⟨next, p.sent (p.countHop (onPath x.msg path intm) port) port,
      x.hops ++ [⟨x.router, port, x.msg.myGHop⟩]⟩ := by
  have hglobal : ¬ (p.numRouters ≤ port ∧ port < p.numRouters + p.numGlobalChannels) := by omega
  have hmsg : p.sent (p.countHop (onPath x.msg path intm) port) port =
      { x.msg with
        lastHop := .local, pathType := some path, intmGroupId := intm, myLHop := x.msg.myLHop + 1
        myNHop := x.msg.myNHop + 1 } := by
    simp only [sent, countHop, onPath, if_neg hglobal, if_pos hport, Nat.add_zero]
  rw [hmsg]
  obtain ⟨hsorted, hbelow⟩ := h.sorted_append ⟨x.router, port, x.msg.myGHop⟩
    { x.msg with lastHop := .local }
    (by rw [stage, rank, if_neg hlocal, if_pos hport])
    (by rw [stage, rank, if_pos rfl, if_pos hport]; exact Nat.lt_succ_self _)
  refine ⟨h.dest_eq, h.router_eq, h.origin_eq, hg ▸ h.real, nofun,
    fun _ => ⟨path, rfl, hc.minimal, hq⟩, hc.drawn, ?_,
    fun h0 => ?_, fun _ => ?_, hsorted, hbelow⟩
  · dsimp only
    rw [hg]
    obtain h0 | ⟨h1, hne, hin⟩ | h2 := h.group
    · exact .inl h0
    · refine .inr (.inl ⟨h1, hne, hin.imp_right fun hi => ?_⟩)
      rw [← (hc.kept fun hterminal => ?_).2, hi]
      have hfresh := (h.fresh hterminal).2.1
      omega
    · exact .inr (.inr h2)
  · dsimp only at h0 ⊢
    rw [h.lHop h0, if_neg hlocal, if_pos rfl]
  · rintro path' ⟨⟩
    exact hsettled

/-- A hop to another group. -/
theorem OnWay.after_global (hc : Chosen p origin dest x.router x.msg path intm stop)
    (hq : ∀ q, routing = some (.path q) → path = q) {next i : ℕ} (hi : i < p.numGlobalChannels)
    (hne : p.groupId next ≠ p.groupId x.router) (hreal : p.groupId next < p.numRealGroups)
    (hnot : p.groupId x.router ≠ p.groupId dest) (hto : p.groupId next = p.groupId dest ∨
      p.groupId x.router = p.groupId origin ∧ intm = some (p.groupId next)) :
    p.outputChan x.msg (p.numRouters + i) = x.msg.myGHop ∧
    OnWay p routing origin t dest
      ⟨next, p.sent (p.countHop (onPath x.msg path intm) (p.numRouters + i)) (p.numRouters + i),
        x.hops ++ [⟨x.router, p.numRouters + i, x.msg.myGHop⟩]⟩ := by
  have hlocal : ¬ p.numRouters + i < p.numRouters := by omega
  have hglobal : p.numRouters ≤ p.numRouters + i ∧
      p.numRouters + i < p.numRouters + p.numGlobalChannels := by omega
  have hmsg : p.sent (p.countHop (onPath x.msg path intm) (p.numRouters + i)) (p.numRouters + i) =
      { x.msg with
        lastHop := .global, pathType := some path, intmGroupId := intm, myGHop := x.msg.myGHop + 1
        myNHop := x.msg.myNHop + 1 } := by
    simp only [sent, countHop, onPath, if_pos hglobal, if_neg hlocal, Nat.add_zero]
  refine ⟨by rw [outputChan, if_neg hlocal, if_pos hglobal.2], ?_⟩
  rw [hmsg]
  obtain ⟨hsorted, hbelow⟩ := h.sorted_append ⟨x.router, p.numRouters + i, x.msg.myGHop⟩
    { x.msg with lastHop := .global, myGHop := x.msg.myGHop + 1 }
    (by rw [stage, rank, if_neg hlocal]; dsimp only; split_ifs <;> omega)
    (by rw [stage, rank, if_neg hlocal, if_neg (show LastHop.global ≠ .local by decide)]
        dsimp only
        omega)
  refine ⟨h.dest_eq, h.router_eq, h.origin_eq, hreal, nofun,
    fun _ => ⟨path, rfl, hc.minimal, hq⟩, hc.drawn, ?_,
    fun h0 => absurd h0 (Nat.succ_ne_zero _), nofun, hsorted, hbelow⟩
  dsimp only
  obtain ⟨h0, horigin⟩ | ⟨h1, hgroup, -⟩ | ⟨-, hgroup⟩ := h.group
  · exact .inr (.inl ⟨by rw [h0], horigin ▸ hne, hto.imp_right And.right⟩)
  · exact .inr (.inr ⟨by rw [h1], hto.resolve_right fun hback => hgroup hback.1⟩)
  · exact absurd hgroup hnot

/-- **One hop.**  At each router no assertion fails; the packet is sent to its terminal at its
destination, and otherwise over a port that leads on. -/
theorem OnWay.route (hp : 2 ≤ p.numRouters)
    (hgroups : p.numRealGroups ≤ p.numGroups) (hdest : p.groupId dest < p.numRealGroups)
    (hdraw : p.Drawn l) (halgo : routing ≠ none) :
    ∃ stop port chan chunk, p.route routing l.load x.router x.msg l.draw =
        some (stop, port, chan, chunk) ∧
      (x.router = dest ∧ stop = .terminal ∧
        port = p.numRouters + p.numGlobalChannels + t % p.numCn ∨
      x.router ≠ dest ∧ ∃ next, stop = .router next ∧ p.Leads x.router port next ∧
        OnWay p routing origin t dest
          ⟨next, p.sent chunk port, x.hops ++ [⟨x.router, port, chan⟩]⟩) := by
  have hp0 : 0 < p.numRouters := by omega
  have hcn : 0 < p.numCn := Nat.div_pos hp (by decide)
  obtain ⟨stop, path, intm, hchoice, hc, hq⟩ := h.chosen hp hdest hdraw halgo
  have hsteps : ∀ port chan, p.getOutputPort x.router (onPath x.msg path intm) stop = port →
      p.outputChan x.msg port = chan → chan < 3 → port < p.radix →
      p.route routing l.load x.router x.msg l.draw =
        some (stop, port, chan, p.countHop (onPath x.msg path intm) port) := by
    rintro port chan rfl rfl hchan hport
    simp only [Param.route, h.dest_eq, h.router_eq, hchoice, Option.bind_eq_bind, Option.bind_some,
      guard, hchan, hport, and_self, if_true]
    rfl
  have hgHop : x.msg.myGHop < 3 := by
    have hgroup := h.group
    omega
  obtain ⟨rfl, hhere⟩ | ⟨next, rfl, hnot, hlocal, -, hg, hsettled⟩ |
    ⟨g', rfl, hnot, hlink, hne, hreal, hgroup, hto⟩ := h.nextStop_cases hp0 hdest hc
  · have hterminal := Nat.mod_lt t hcn
    have hport : p.getOutputPort x.router (onPath x.msg path intm) .terminal =
        p.numRouters + p.numGlobalChannels + t % p.numCn := h.dest_eq ▸ rfl
    refine ⟨_, _, 0, _, hsteps _ _ hport ?_ (by decide) ?_, .inl ⟨hhere, rfl, rfl⟩⟩
    · rw [outputChan, if_neg (by omega), if_neg (by omega)]
    · rw [radix]
      exact Nat.add_lt_add_left hterminal _
  · obtain ⟨hport, hleads⟩ := getOutputPort_local (onPath x.msg path intm) hp0 hg
    refine ⟨_, _, _, _, hsteps _ _ rfl (h.outputChan_local hlocal hport) hgHop ?_,
      .inr ⟨hnot, next, rfl, hleads, h.after_local hc hq hlocal hport hg hsettled⟩⟩
    rw [radix]
    omega
  · obtain ⟨i, hi, hport, hnext⟩ := getOutputPort_global (g := p.groupId x.router) hp0 hne.symm
      (h.real.trans_le hgroups) (hreal.trans_le hgroups) (onPath x.msg path intm)
    rw [← hlink] at hport hnext
    have hg := groupId_getRouterFromGroupID hp0 (p.groupId x.router) g'
    rw [← hg] at hne hreal hto
    obtain ⟨hchan, hafter⟩ := h.after_global hc hq hi hne hreal hgroup hto
    refine ⟨_, _, _, _, hsteps _ _ hport hchan hgHop ?_,
      .inr ⟨hnot, _, rfl, .inr ⟨i, hi, rfl, hnext⟩, hafter⟩⟩
    rw [radix]
    omega

end

end Param

end CodesSim.Dragonfly
