import CodesSim.Dragonfly.Routes
import CodesSim.Lib.Machine
import Mathlib.Data.List.Perm.Subperm

/-!
# The packets of a dragonfly arrive

A packet goes from router to router (`travel`).  What it meets there, the occupancies of the ports
and the draws, are the labels of the run, so that the results hold whatever the other packets do.

* `packets_arrive` : no assertion fails, every hop goes over a link, and after at most five the
  packet is at its destination;
* `no_circular_wait` : packets never wait for places in buffers in a circle;
* `minimal_hops` : a minimal path is as long as `get_num_hops` says;
* `progAdaptive_eq_adaptive` : the progressive algorithm sends no packet another way than the
  adaptive one.
-/

namespace CodesSim.Dragonfly

namespace Param

variable (p : Param)

/-- A packet goes from router to router until one sends it to its terminal. -/
def travel (routing : Option RoutingAlgo) : Machine Packet Around where
  step x l := match p.route routing l.load x.router x.msg l.draw with
    | some (.router next, port, chan, msg) =>
      some ⟨next, sent p msg port, x.hops ++ [⟨x.router, port, chan⟩]⟩
    | _ => none

/-- The packet of a terminal at its first router. -/
def start (terminal destTerminal : ℕ) : Packet :=
  ⟨terminal / p.numCn, p.injected terminal destTerminal, []⟩

/-- The router of a terminal is there. -/
def Attached (terminal : ℕ) : Prop := p.groupId (terminal / p.numCn) < p.numRealGroups

instance (terminal : ℕ) : Decidable (p.Attached terminal) :=
  inferInstanceAs (Decidable (_ < _))

/-- No assertion fails for a packet at a router, and it is sent to its terminal if it is at its
destination, and otherwise over a link. -/
def Onward (routing : Option RoutingAlgo) (destTerminal : ℕ) (x : Packet) (l : Around) : Prop :=
  ∃ stop port chan chunk, p.route routing l.load x.router x.msg l.draw =
      some (stop, port, chan, chunk) ∧
    (x.router = destTerminal / p.numCn ∧ stop = .terminal ∧
        port = p.numRouters + p.numGlobalChannels + destTerminal % p.numCn ∨
      x.router ≠ destTerminal / p.numCn ∧ ∃ next, stop = .router next ∧ p.Leads x.router port next)

/-- A packet in the buffer `c` may wait for a place in the buffer `c'`. -/
def Waits (routing : Option RoutingAlgo) (c c' : Buffer) : Prop :=
  ∃ terminal destTerminal ls x, p.Attached terminal ∧ p.Attached destTerminal ∧
    (∀ l ∈ ls, p.Drawn l) ∧ (p.travel routing).run (p.start terminal destTerminal) ls = some x ∧
    [c, c'] <:+: x.hops

variable {p} {routing : Option RoutingAlgo} {origin t dest terminal destTerminal : ℕ}
  {x x' : Packet} {l : Around} {ls : List Around}

/-! ### Runs -/

theorem travel_eq_some : (p.travel routing).step x l = some x' ↔
    ∃ next port chan chunk, p.route routing l.load x.router x.msg l.draw =
      some (.router next, port, chan, chunk) ∧
      x' = ⟨next, p.sent chunk port, x.hops ++ [⟨x.router, port, chan⟩]⟩ := by
  simp only [travel]
  split
  · rename_i next port chan chunk heq
    rw [Option.some.injEq, eq_comm]
    constructor
    · rintro rfl
      exact ⟨next, port, chan, chunk, heq, rfl⟩
    · rintro ⟨_, _, _, _, heq', rfl⟩
      cases heq.symm.trans heq'
      rfl
  · rename_i hnone
    refine iff_of_false nofun ?_
    rintro ⟨next, port, chan, chunk, heq, -⟩
    exact hnone next port chan chunk heq

theorem length_hops_of_run (hrun : (p.travel routing).run x ls = some x') :
    x'.hops.length = x.hops.length + ls.length := by
  induction ls generalizing x with
  | nil =>
    cases hrun
    rfl
  | cons l ls ih =>
    obtain ⟨y, hstep, hrest⟩ := Machine.run_cons_eq_some.1 hrun
    obtain ⟨next, port, chan, chunk, -, rfl⟩ := travel_eq_some.1 hstep
    rw [ih hrest, List.length_append, List.length_singleton, List.length_cons]
    omega

theorem onWay_start (h : p.Attached terminal) :
    OnWay p routing (terminal / p.numCn) destTerminal (destTerminal / p.numCn)
      (p.start terminal destTerminal) where
  dest_eq := rfl
  router_eq := rfl
  origin_eq := rfl
  real := h
  fresh _ := ⟨rfl, rfl, rfl, rfl⟩
  path h := absurd rfl h
  drawn := nofun
  group := .inl ⟨rfl, rfl⟩
  lHop _ := rfl
  settled := nofun
  sorted := .nil
  below := nofun

/-- At most five hops are in order. -/
theorem OnWay.hops_le (h : OnWay p routing origin t dest x) : x.hops.length ≤ 5 := by
  have hstage : ∀ n ∈ x.hops.map p.rank, n < 5 := by
    intro n hn
    obtain ⟨hop, hhop, rfl⟩ := List.mem_map.1 hn
    have hbelow := h.below hop hhop
    have hgroup := h.group
    rw [stage] at hbelow
    split_ifs at hbelow <;> omega
  have hnodup : (x.hops.map p.rank).Nodup := h.sorted.imp Nat.ne_of_lt
  have hsub : x.hops.map p.rank ⊆ List.range 5 := fun n hn => List.mem_range.2 (hstage n hn)
  simpa using (List.subperm_of_subset hnodup hsub).length_le

section Networks

variable (hp : 2 ≤ p.numRouters) (hgroups : p.numRealGroups ≤ p.numGroups) (halgo : routing ≠ none)

include hp hgroups halgo

/-- A packet stays on its way, and stops at its destination. -/
theorem OnWay.step (h : OnWay p routing origin t dest x) (hdest : p.groupId dest < p.numRealGroups)
    (hdraw : p.Drawn l) :
    (∀ x', (p.travel routing).step x l = some x' → OnWay p routing origin t dest x') ∧
      (x.router ≠ dest → ((p.travel routing).step x l).isSome = true) := by
  obtain ⟨stop, port, chan, chunk, hroute, hcases⟩ := h.route hp hgroups hdest hdraw halgo
  constructor
  · intro x' hstep
    obtain ⟨next, port', chan', chunk', hroute', rfl⟩ := travel_eq_some.1 hstep
    cases hroute.symm.trans hroute'
    obtain ⟨-, hstop, -⟩ | ⟨-, next', ⟨⟩, -, hafter⟩ := hcases
    · cases hstop
    · exact hafter
  · intro hne
    obtain ⟨next, rfl, -⟩ := (hcases.resolve_left fun hhere => hne hhere.1).2
    rw [Option.isSome_iff_exists]
    exact ⟨_, travel_eq_some.2 ⟨next, port, chan, chunk, hroute, rfl⟩⟩

theorem OnWay.run (h : OnWay p routing origin t dest x) (hdest : p.groupId dest < p.numRealGroups)
    (hdraws : ∀ l ∈ ls, p.Drawn l) (hrun : (p.travel routing).run x ls = some x') :
    OnWay p routing origin t dest x' :=
  Machine.run_invariant
    (fun _ _ _ hx hdraw hstep => (hx.step hp hgroups halgo hdest hdraw).1 _ hstep) h hdraws hrun

/-- With six steps to go a packet arrives. -/
theorem OnWay.arrives (h : OnWay p routing origin t dest x)
    (hdest : p.groupId dest < p.numRealGroups) (hdraws : ∀ l ∈ ls, p.Drawn l)
    (hlength : 5 < x.hops.length + ls.length) :
    ∃ n x', (p.travel routing).run x (ls.take n) = some x' ∧ x'.router = dest := by
  induction ls generalizing x with
  | nil => exact absurd h.hops_le (not_le.2 hlength)
  | cons l ls ih =>
    by_cases hhere : x.router = dest
    · exact ⟨0, x, rfl, hhere⟩
    rw [List.forall_mem_cons] at hdraws
    have hstep := h.step hp hgroups halgo hdest hdraws.1
    obtain ⟨y, hy⟩ := Option.isSome_iff_exists.1 (hstep.2 hhere)
    have hone := length_hops_of_run (Machine.run_cons_eq_some.2 ⟨y, hy, Machine.run_nil y⟩)
    rw [List.length_singleton] at hone
    rw [List.length_cons] at hlength
    obtain ⟨n, x', hrun, hx'⟩ := ih (hstep.1 y hy) hdraws.2 (by omega)
    exact ⟨n + 1, x', Machine.run_cons_eq_some.2 ⟨y, hy, hrun⟩, hx'⟩

end Networks

/-- **Packets arrive.**  Whatever the algorithm, the occupancies and the draws are: at every
router that a packet comes to no assertion fails, it is sent to its terminal if it is at its
destination and otherwise over a link; the buffers it has been in are in order; and after at most
five hops it is at its destination. -/
theorem packets_arrive (p : Param) (routing : Option RoutingAlgo) (terminal destTerminal : ℕ)
    (ls : List Around) (hp : 2 ≤ p.numRouters) (hgroups : p.numRealGroups ≤ p.numGroups)
    (halgo : routing ≠ none) (hfrom : p.Attached terminal) (hto : p.Attached destTerminal)
    (hdraws : ∀ l ∈ ls, p.Drawn l) :
    (∀ x, (p.travel routing).run (p.start terminal destTerminal) ls = some x →
      ls.length ≤ 5 ∧ (x.hops.map p.rank).Pairwise (· < ·) ∧
        ∀ l, p.Drawn l → p.Onward routing destTerminal x l) ∧
    (5 < ls.length → ∃ n ≤ 5, ∃ x,
      (p.travel routing).run (p.start terminal destTerminal) (ls.take n) = some x ∧
        x.router = destTerminal / p.numCn) := by
  have hstart : OnWay p routing (terminal / p.numCn) destTerminal (destTerminal / p.numCn)
      (p.start terminal destTerminal) := onWay_start hfrom
  constructor
  · intro x hrun
    have hx := hstart.run hp hgroups halgo hto hdraws hrun
    have hlength := length_hops_of_run hrun
    rw [start, List.length_nil, Nat.zero_add] at hlength
    refine ⟨hlength ▸ hx.hops_le, hx.sorted, fun l hdraw => ?_⟩
    obtain ⟨stop, port, chan, chunk, hroute, hcases⟩ := hx.route hp hgroups hto hdraw halgo
    refine ⟨stop, port, chan, chunk, hroute, hcases.imp_right (And.imp_right ?_)⟩
    rintro ⟨next, hstop, hleads, -⟩
    exact ⟨next, hstop, hleads⟩
  · intro hlength
    obtain ⟨n, x, hrun, hhere⟩ := hstart.arrives hp hgroups halgo hto hdraws
      (by rw [start, List.length_nil, Nat.zero_add]; exact hlength)
    have hx := hstart.run hp hgroups halgo hto
      (fun l hl => hdraws l (List.mem_of_mem_take hl)) hrun
    have hsteps := length_hops_of_run hrun
    have hle := hx.hops_le
    rw [hsteps, start, List.length_nil, Nat.zero_add, List.length_take] at hle
    exact ⟨n, by omega, x, hrun, hhere⟩

/-- Six draws of the first other group, with a load at every router of a packet in each port. -/
def sixAlike : List Around := List.replicate 6 ⟨⟨fun _ _ => 0, fun port => port⟩, 1⟩

theorem packets_arrive_nineGroups : ∃ n ≤ 5, ∃ x,
    (nineGroups.travel (some .adaptive)).run (nineGroups.start 0 50) (sixAlike.take n) = some x ∧
      x.router = 50 / nineGroups.numCn :=
  (packets_arrive nineGroups (some .adaptive) 0 50 sixAlike (by decide) (by decide) nofun
    (by decide) (by decide) (fun l hl => .inr (List.eq_of_mem_replicate hl ▸ by decide))).2
      (by decide)

/-! ### Waiting -/

theorem Waits.rank_lt (hp : 2 ≤ p.numRouters) (hgroups : p.numRealGroups ≤ p.numGroups)
    (halgo : routing ≠ none) {c c' : Buffer} (h : p.Waits routing c c') : p.rank c < p.rank c' := by
  obtain ⟨terminal, destTerminal, ls, x, hfrom, hto, hdraws, hrun, hwaits⟩ := h
  have hx := (onWay_start hfrom).run hp hgroups halgo hto hdraws hrun
  have hpair := hx.sorted.sublist (hwaits.map p.rank).sublist
  exact (List.pairwise_cons.1 hpair).1 _ List.mem_cons_self

/-- **Packets do not wait in a circle**: no buffer has a packet that waits for a place in another
one, whose packets wait for the next, and so on back to the first. -/
theorem no_circular_wait (p : Param) (routing : Option RoutingAlgo) (hp : 2 ≤ p.numRouters)
    (hgroups : p.numRealGroups ≤ p.numGroups) (halgo : routing ≠ none) (c : Buffer) :
    ¬Relation.TransGen (p.Waits routing) c c := by
  intro hcycle
  have hlt : ∀ c', Relation.TransGen (p.Waits routing) c c' → p.rank c < p.rank c' := by
    intro c' h
    induction h with
    | single h => exact h.rank_lt hp hgroups halgo
    | tail _ h ih => exact ih.trans (h.rank_lt hp hgroups halgo)
  exact lt_irrefl _ (hlt c hcycle)

theorem no_circular_wait_nineGroups :
    ¬Relation.TransGen (nineGroups.Waits (some .progAdaptive)) ⟨0, 1, 0⟩ ⟨0, 1, 0⟩ :=
  no_circular_wait nineGroups (some .progAdaptive) (by decide) (by decide) nofun _

/-! ### Minimal paths -/

/-- The number of hops of a router that has no link of the path. -/
theorem getNumHops_of_not_settled {router : ℕ} {msg : Msg} (hne : router ≠ dest)
    (hnone : msg.intmGroupId = none) (hsettled : ¬p.Settled router msg .minimal dest) {next : ℕ}
    (hgroup : p.groupId next = p.groupId router) (hnext : p.Settled next msg .minimal dest) :
    p.getNumHops next dest + 1 = p.getNumHops router dest := by
  have hto (r : ℕ) : p.destGroup r msg .minimal dest = p.groupId dest := by
    rw [destGroup, hnone]
  rw [Settled, hto] at hsettled hnext
  rw [hgroup] at hnext
  simp only [getNumHops, hgroup]
  by_cases hsame : p.groupId router = p.groupId dest
  · rw [if_pos hsame] at hnext
    rw [if_pos hnext, if_neg hne, if_pos hsame]
  · rw [if_neg hsame] at hsettled hnext
    have hne' : next ≠ dest := fun heq => hsame (hgroup ▸ congrArg p.groupId heq)
    rw [if_neg hne', if_neg hne, if_neg hsame, if_neg hsame, if_pos hnext, if_neg hsettled]
    split_ifs <;> rfl

/-- The number of hops of a router that has the link of the path. -/
theorem getNumHops_of_link (hp : 0 < p.numRouters) {g' : ℕ} (hne : g' ≠ p.groupId dest) :
    p.getNumHops (p.getRouterFromGroupID g' (p.groupId dest)) dest + 1 =
      p.getNumHops (p.getRouterFromGroupID (p.groupId dest) g') dest := by
  have hgroup := groupId_getRouterFromGroupID hp (p.groupId dest) g'
  have hhere : p.getRouterFromGroupID (p.groupId dest) g' ≠ dest := fun heq =>
    hne (hgroup.symm.trans (congrArg p.groupId heq))
  simp only [getNumHops, groupId_getRouterFromGroupID hp, if_neg hhere, if_neg hne]
  split_ifs <;> rfl

/-- **Minimal paths are as long as `get_num_hops` says**: after any number of steps a packet of the
minimal algorithm has as many left as `get_num_hops` counts from the router it has come to, which
counts the last router as one. -/
theorem minimal_hops (p : Param) (terminal destTerminal : ℕ) (ls : List Around) (x : Packet)
    (hp : 2 ≤ p.numRouters) (hgroups : p.numRealGroups ≤ p.numGroups) (hfrom : p.Attached terminal)
    (hto : p.Attached destTerminal) (hdraws : ∀ l ∈ ls, p.Drawn l)
    (hrun : (p.travel (some (.path .minimal))).run (p.start terminal destTerminal) ls = some x) :
    ls.length + p.getNumHops x.router (destTerminal / p.numCn) =
      p.getNumHops (terminal / p.numCn) (destTerminal / p.numCn) := by
  have hp0 : 0 < p.numRouters := by omega
  suffices h : ∀ (ls : List Around) (x : Packet), OnWay p (some (.path .minimal))
      (terminal / p.numCn) destTerminal (destTerminal / p.numCn) x → (∀ l ∈ ls, p.Drawn l) → ∀ x',
      (p.travel (some (.path .minimal))).run x ls = some x' →
        ls.length + p.getNumHops x'.router (destTerminal / p.numCn) =
          p.getNumHops x.router (destTerminal / p.numCn) from
    h ls _ (onWay_start hfrom) hdraws x hrun
  intro ls
  induction ls with
  | nil =>
    rintro x - - _ ⟨⟩
    exact Nat.zero_add _
  | cons l ls ih =>
    intro x hx hdraws x' hrun
    rw [List.forall_mem_cons] at hdraws
    obtain ⟨y, hstep, hrest⟩ := Machine.run_cons_eq_some.1 hrun
    have hy := (hx.step hp hgroups (Option.some_ne_none _) hto hdraws.1).1 y hstep
    -- what is left of the path after one hop
    have hone : p.getNumHops y.router (destTerminal / p.numCn) + 1 =
        p.getNumHops x.router (destTerminal / p.numCn) := by
      obtain ⟨stop, path, intm, hchoice, hc, hq⟩ :=
        hx.chosen hp hto hdraws.1 (Option.some_ne_none _)
      obtain rfl := hq _ rfl
      obtain rfl := hc.minimal rfl
      obtain ⟨next, port, chan, chunk, hroute, rfl⟩ := travel_eq_some.1 hstep
      simp only [Param.route, hx.dest_eq, hchoice, Option.bind_eq_bind, Option.bind_some,
        Option.bind_eq_some_iff, Option.some.injEq, Prod.mk.injEq] at hroute
      obtain ⟨-, -, rfl, -⟩ := hroute
      obtain ⟨⟨⟩, -⟩ | ⟨next', ⟨⟩, hne, -, hnot, hgroup, hsettled⟩ |
        ⟨g', ⟨⟩, -, hlink, -, -, hgroup, hto'⟩ := hx.nextStop_cases hp0 hto hc
      · exact getNumHops_of_not_settled hne rfl hnot hgroup hsettled
      · obtain rfl := hto'.resolve_right fun h => Option.some_ne_none _ h.2.symm
        have hcount := getNumHops_of_link hp0 hgroup
        rwa [← hlink] at hcount
    rw [← hone, ← ih y hy hdraws.2 x' hrest, List.length_cons]
    omega

theorem minimal_hops_nineGroups : ∃ x,
    (nineGroups.travel (some (.path .minimal))).run (nineGroups.start 0 50) (sixAlike.take 2) =
      some x ∧ 2 + nineGroups.getNumHops x.router 25 = nineGroups.getNumHops 0 25 := by
  have hsome : ((nineGroups.travel (some (.path .minimal))).run (nineGroups.start 0 50)
      (sixAlike.take 2)).isSome = true := by decide
  obtain ⟨x, hrun⟩ := Option.isSome_iff_exists.1 hsome
  exact ⟨x, hrun, minimal_hops nineGroups 0 50 (sixAlike.take 2) x (by decide) (by decide)
    (by decide) (by decide) (fun l hl => .inr
      (List.eq_of_mem_replicate (List.mem_of_mem_take hl) ▸ by decide)) hrun⟩

/-! ### The progressive algorithm -/

/-- What is chosen does not depend on which of the adaptive algorithms it is. -/
theorem OnWay.chooseStop_progAdaptive (h : OnWay p (some .progAdaptive) origin t dest x)
    (hp : 2 ≤ p.numRouters) (hdest : p.groupId dest < p.numRealGroups) (hdraw : p.Drawn l) :
    p.chooseStop (some .progAdaptive) l.load x.router x.msg dest
        ((p.groupId x.router + l.draw) % p.numRealGroups) =
      p.chooseStop (some .adaptive) l.load x.router x.msg dest
        ((p.groupId x.router + l.draw) % p.numRealGroups) := by
  by_cases hlast : x.msg.lastHop = .terminal
  · obtain ⟨hrouter, -, hpath, -⟩ := h.fresh hlast
    have hprog : some RoutingAlgo.progAdaptive = some .progAdaptive ∧
        x.msg.pathType ≠ some .nonMinimal ∧
          p.groupId x.router = p.groupId x.msg.originRouterId := by
      rw [hpath, h.origin_eq, hrouter]
      exact ⟨rfl, (Option.some_ne_none _).symm, rfl⟩
    have hnot : some RoutingAlgo.adaptive ≠ some .progAdaptive := by decide
    rw [chooseStop, if_pos hprog, chooseStop, if_neg fun hand => hnot hand.1, if_pos ⟨hlast, rfl⟩]
  · have h' : OnWay p (some .adaptive) origin t dest x :=
      { h with
        path := fun hlast => by
          obtain ⟨path, hpath, hmin, -⟩ := h.path hlast
          refine ⟨path, hpath, hmin, fun q hq => ?_⟩
          cases hq }
    obtain ⟨stop, path, intm, hchoice, hc, -⟩ := h.chosen hp hdest hdraw (Option.some_ne_none _)
    obtain ⟨stop', path', intm', hchoice', hc', -⟩ :=
      h'.chosen hp hdest hdraw (Option.some_ne_none _)
    -- both keep what was chosen at the first router
    obtain ⟨hpath, rfl⟩ := hc.kept hlast
    obtain ⟨hpath', rfl⟩ := hc'.kept hlast
    obtain rfl := Option.some.inj (hpath.symm.trans hpath')
    rw [hchoice, hchoice', hc.stop_eq, hc'.stop_eq]

/-- **The progressive algorithm never changes its mind**: packets go the same ways, step by step, as
with the adaptive algorithm.  At the second router of its group a packet has no intermediate group,
so that both ports that are compared are the same. -/
theorem progAdaptive_eq_adaptive (p : Param) (terminal destTerminal : ℕ) (ls : List Around)
    (hp : 2 ≤ p.numRouters) (hgroups : p.numRealGroups ≤ p.numGroups) (hfrom : p.Attached terminal)
    (hto : p.Attached destTerminal) (hdraws : ∀ l ∈ ls, p.Drawn l) :
    (p.travel (some .progAdaptive)).run (p.start terminal destTerminal) ls =
      (p.travel (some .adaptive)).run (p.start terminal destTerminal) ls := by
  suffices h : ∀ (ls : List Around) (x : Packet), OnWay p (some .progAdaptive) (terminal / p.numCn)
      destTerminal (destTerminal / p.numCn) x → (∀ l ∈ ls, p.Drawn l) →
      (p.travel (some .progAdaptive)).run x ls = (p.travel (some .adaptive)).run x ls from
    h ls _ (onWay_start hfrom) hdraws
  intro ls
  induction ls with
  | nil => exact fun _ _ _ => rfl
  | cons l ls ih =>
    intro x hx hdraws
    rw [List.forall_mem_cons] at hdraws
    have hchoice := hx.chooseStop_progAdaptive hp hto hdraws.1
    have hstep : (p.travel (some .progAdaptive)).step x l =
        (p.travel (some .adaptive)).step x l := by
      simp only [travel, route, hx.dest_eq, hchoice]
    rw [Machine.run, Machine.run, ← hstep]
    cases hy : (p.travel (some .progAdaptive)).step x l with
    | none => rfl
    | some y =>
      have hnext := (hx.step hp hgroups (Option.some_ne_none _) hto hdraws.1).1 y hy
      exact ih y hnext hdraws.2

theorem progAdaptive_eq_adaptive_nineGroups :
    (nineGroups.travel (some .progAdaptive)).run (nineGroups.start 0 50) sixAlike =
      (nineGroups.travel (some .adaptive)).run (nineGroups.start 0 50) sixAlike :=
  progAdaptive_eq_adaptive nineGroups 0 50 sixAlike (by decide) (by decide) (by decide) (by decide)
    fun l hl => .inr (List.eq_of_mem_replicate hl ▸ by decide)

end Param

end CodesSim.Dragonfly
