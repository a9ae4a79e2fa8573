import CodesSim.Dally.Basic
import CodesSim.NetMan.PortTypes

/-!
# The links of the dragonfly network

What `dragonfly_read_config` makes of the link files (`readLinks`): every link inside a group is
made for all groups, every link between groups for all planes, and every terminal has a link on each
rail to its router (`Param.assignedRouterId`).  The network manager does the rest.

A router has as many links to terminals as there are ports for them (`numLinks_terminal`).
-/

namespace CodesSim.Dally

open NetMan (Link LinkInfo numLinks)

/-- The link files: the links inside a group by the numbers of the routers in the group
(`IntraGroupLink`), those between groups by the ids of the routers in the first plane
(`InterGroupLink`), and the link failures if they are enabled. -/
structure LinkFiles where
  intra : List (ℤ × ℤ)
  inter : List (ℤ × ℤ)
  failures : Option (List LinkInfo)

namespace Param

variable (p : Param)

def totalGroups : ℕ := p.numGroups * p.numPlanes

def totalTerminals : ℕ := p.totalRouters * p.numCn / p.numPlanes

def routersPerPlane : ℕ := p.totalRouters / p.numPlanes

/-- The parameters of the network manager. -/
def networkParam : NetMan.NetworkParam where
  totalRouters := p.totalRouters
  totalTerminals := p.totalTerminals
  numRoutersPerGroup := p.numRouters
  numLcPr := p.intraGrpRadix
  numGcPr := p.globalRadix
  numCnPr := p.cnRadix
  numRails := p.numRails
  totalPlanes := p.numPlanes
  uniform := Nat.dvd_mul_left _ _

end Param

/-- The link that is added for two routers of a group. -/
def localLink (src dest rail : ℤ) : Link := ⟨⟨src, dest, rail, .connLocal⟩, nofun⟩

/-- The link that is added for two routers of different groups. -/
def globalLink (src dest rail : ℤ) : Link := ⟨⟨src, dest, rail, .connGlobal⟩, nofun⟩

/-- The link that is added for a router and a terminal. -/
def terminalLink (src dest rail : ℤ) : Link := ⟨⟨src, dest, rail, .connTerminal⟩, nofun⟩

variable (p : Param) (files : LinkFiles)

/-- The links inside the groups. -/
def localLinks : List Link :=
  files.intra.flatMap fun l =>
    ((List.range p.totalRouters).filter fun i => ((i % p.numRouters : ℕ) : ℤ) = l.1).map
      fun i : ℕ => localLink i ((i / p.numRouters * p.numRouters : ℕ) + l.2)
        (i / p.routersPerPlane : ℕ)

/-- The links to the terminals. -/
def terminalLinks : List Link :=
  (List.range p.totalTerminals).flatMap fun i => (List.range p.numRails).map fun j =>
    terminalLink (p.assignedRouterId i j) i j

/-- The links between the groups. -/
def globalLinks : List Link :=
  files.inter.flatMap fun l => (List.range p.numPlanes).map fun i : ℕ =>
    globalLink (l.1 + (i * p.routersPerPlane : ℕ)) (l.2 + (i * p.routersPerPlane : ℕ)) i

/-- All links, in the order in which they are added. -/
def links : List Link := localLinks p files ++ terminalLinks p ++ globalLinks p files

/-- `connectionList` has a row for the group of a router. -/
def inFirstPlane (gid : ℤ) : Bool :=
  0 ≤ gid.tdiv p.numRouters ∧ gid.tdiv p.numRouters < p.numGroups

/-- The part of `dragonfly_read_config` about links; `none` if it fails: the network manager rejects
a link or a failure, a group of a link does not exist, or a division by zero is made before. -/
def readLinks : Option NetMan.Network :=
  if p.numPlanes = 0 ∨ p.numRouters = 0 then none
  else if files.inter.all fun l => inFirstPlane p l.1 && inFirstPlane p l.2 then
    NetMan.solidify p.networkParam files.failures.isSome (links p files) (files.failures.getD [])
  else none

variable {p files}

theorem readLinks_eq_some {net : NetMan.Network} (h : readLinks p files = some net) :
    0 < p.numPlanes ∧ 0 < p.numRouters ∧
      (∀ l ∈ files.inter, inFirstPlane p l.1 = true ∧ inFirstPlane p l.2 = true) ∧
      NetMan.solidify p.networkParam files.failures.isSome (links p files)
        (files.failures.getD []) = some net := by
  rw [readLinks] at h
  split_ifs at h with hzero hall
  refine ⟨by omega, by omega, fun l hl => ?_, h⟩
  simpa using List.all_eq_true.1 hall l hl

/-! ### The links to terminals -/

theorem countP_div_eq {n a k : ℕ} (ha : a < k) :
    (List.range (k * n)).countP (fun t => t / n = a) = n := by
  rcases Nat.eq_zero_or_pos n with rfl | hn
  · simp
  obtain ⟨d, rfl⟩ : ∃ d, k = a + 1 + d := ⟨k - (a + 1), by omega⟩
  rw [Nat.add_mul, Nat.add_mul, Nat.one_mul, List.range_add, List.range_add, List.countP_append,
    List.countP_append, List.countP_map, List.countP_map]
  have hbefore : (List.range (a * n)).countP (fun t => t / n = a) = 0 := by
    refine List.countP_eq_zero.2 fun t ht => ?_
    have := Nat.div_lt_of_lt_mul (Nat.mul_comm a n ▸ List.mem_range.1 ht)
    simpa using this.ne
  have hinside : (List.range n).countP ((fun t => decide (t / n = a)) ∘ (a * n + ·)) = n := by
    refine (List.countP_eq_length.2 fun t ht => ?_).trans List.length_range
    simp only [Function.comp_apply, decide_eq_true_eq]
    rw [Nat.mul_comm, Nat.mul_add_div hn, Nat.div_eq_of_lt (List.mem_range.1 ht), Nat.add_zero]
  have hbehind : (List.range (d * n)).countP
      ((fun t => decide (t / n = a)) ∘ (a * n + n + ·)) = 0 := by
    refine List.countP_eq_zero.2 fun t _ => ?_
    simp only [Function.comp_apply, decide_eq_true_eq]
    rw [← Nat.succ_mul, Nat.mul_comm, Nat.mul_add_div hn]
    exact Nat.ne_of_gt (Nat.lt_of_lt_of_le (Nat.lt_succ_self a) (Nat.le_add_right _ _))
  rw [hbefore, hinside, hbehind, Nat.zero_add, Nat.add_zero]

theorem sum_map_ite {α : Type*} (l : List α) (P : α → Prop) [DecidablePred P] (c : ℕ) :
    (l.map fun a => if P a then c else 0).sum = l.countP (fun a => P a) * c := by
  induction l with
  | nil => simp
  | cons a l ih =>
    rw [List.map_cons, List.sum_cons, ih, List.countP_cons]
    by_cases h : P a <;> simp [h, Nat.add_mul, Nat.add_comm]

theorem countP_localLinks {P : Link → Bool} (h : ∀ l : Link, P l = true → l.connType ≠ .connLocal) :
    (localLinks p files).countP P = 0 := by
  refine List.countP_eq_zero.2 fun l hl hP => ?_
  obtain ⟨e, -, hl⟩ := List.mem_flatMap.1 hl
  obtain ⟨i, -, rfl⟩ := List.mem_map.1 hl
  exact h _ hP rfl

theorem countP_globalLinks {P : Link → Bool}
    (h : ∀ l : Link, P l = true → l.connType ≠ .connGlobal) :
    (globalLinks p files).countP P = 0 := by
  refine List.countP_eq_zero.2 fun l hl hP => ?_
  obtain ⟨e, -, hl⟩ := List.mem_flatMap.1 hl
  obtain ⟨i, -, rfl⟩ := List.mem_map.1 hl
  exact h _ hP rfl

theorem totalRouters_eq (p : Param) : p.totalRouters = p.routersPerPlane * p.numPlanes := by
  rw [Param.routersPerPlane, Nat.div_mul_cancel]
  rw [Param.totalRouters, Nat.mul_right_comm]
  exact Nat.dvd_mul_left _ _

theorem countP_assigned (hplanes : 0 < p.numPlanes) {t i : ℕ} (ht : t < p.totalTerminals)
    (hi : i < p.totalRouters) :
    (List.range p.numRails).countP (fun j => p.assignedRouterId t j = i) =
      if p.numPlanes = 1 then if t / p.numCn = i then p.numRails else 0
      else if t / p.numCn = i % p.routersPerPlane then 1 else 0 := by
  by_cases hone : p.numPlanes = 1
  · rw [if_pos hone]
    simp only [Param.assignedRouterId, if_pos hone]
    split_ifs with heq
    · simp [heq, List.countP_true]
    · simp [heq, List.countP_false]
  · have hrails : p.numPlanes = p.numRails := p.planes_eq.resolve_left hone
    have hlt : t / p.numCn < p.routersPerPlane := by
      rw [Param.totalTerminals, totalRouters_eq, Nat.mul_right_comm,
        Nat.mul_div_cancel _ hplanes] at ht
      exact Nat.div_lt_of_lt_mul (Nat.mul_comm _ p.numCn ▸ ht)
    have hper : 0 < p.routersPerPlane := Nat.pos_of_ne_zero fun h => by
      rw [h] at hlt
      exact Nat.not_lt_zero _ hlt
    have hq : i / p.routersPerPlane < p.numRails := by
      rw [totalRouters_eq, hrails] at hi
      exact Nat.div_lt_of_lt_mul hi
    rw [if_neg hone]
    have hiff : ∀ j, p.assignedRouterId t j = i ↔
        j = i / p.routersPerPlane ∧ t / p.numCn = i % p.routersPerPlane := by
      intro j
      rw [Param.assignedRouterId, if_neg hone, ← Param.routersPerPlane]
      constructor
      · rintro rfl
        rw [Nat.add_mul_div_right _ _ hper, Nat.div_eq_of_lt hlt, Nat.add_mul_mod_self_right,
          Nat.mod_eq_of_lt hlt]
        omega
      · rintro ⟨rfl, hmod⟩
        rw [hmod, Nat.mul_comm]
        exact Nat.mod_add_div i _
    split_ifs with heq
    · simp only [hiff, heq, and_true]
      exact List.nodup_range.count.trans (if_pos (List.mem_range.2 hq))
    · simp only [hiff, heq, and_false, decide_false]
      rw [List.countP_false, Function.const_apply]

theorem countP_terminalLinks_eq (P : Link → Bool) : (terminalLinks p).countP P =
    ((List.range p.totalTerminals).map fun t => (List.range p.numRails).countP fun j =>
      P (terminalLink (p.assignedRouterId t j) t j)).sum := by
  rw [terminalLinks, List.countP_flatMap]
  refine congrArg List.sum (List.map_congr_left fun t _ => ?_)
  rw [Function.comp_apply, List.countP_map]
  rfl

theorem countP_toTerminal (files : LinkFiles) (t : ℕ) :
    (links p files).countP (fun l => l.connType = .connTerminal ∧ l.destGid = (t : ℤ)) ≤
      p.numRails := by
  have hnot : ∀ (ty : NetMan.ConnectionType) (l : Link), ty ≠ .connTerminal →
      decide (l.connType = .connTerminal ∧ l.destGid = (t : ℤ)) = true → l.connType ≠ ty := by
    rintro ty l hty hP rfl
    exact hty (of_decide_eq_true hP).1
  rw [links, List.countP_append, List.countP_append,
    countP_localLinks fun l => hnot _ l (by decide), countP_globalLinks fun l =>
    hnot _ l (by decide), countP_terminalLinks_eq, Nat.zero_add, Nat.add_zero]
  have hrow : ∀ t' : ℕ, ((List.range p.numRails).countP fun j =>
      decide ((terminalLink (p.assignedRouterId t' j) t' j).connType = .connTerminal ∧
        (terminalLink (p.assignedRouterId t' j) t' j).destGid = (t : ℤ))) =
      if t' = t then p.numRails else 0 := by
    intro t'
    split_ifs with heq
    · exact (List.countP_eq_length.2 fun j _ => by simp [terminalLink, heq]).trans List.length_range
    · exact List.countP_eq_zero.2 fun j _ => by simp [terminalLink, heq]
  simp only [hrow]
  rw [sum_map_ite]
  have hone : (List.range p.totalTerminals).countP (fun t' => t' = t) ≤ 1 :=
    List.nodup_iff_count_le_one.1 List.nodup_range t
  exact (Nat.mul_le_mul_right _ hone).trans_eq (Nat.one_mul _)

/-- **A router has as many links to terminals as there are ports for them.** -/
theorem numLinks_terminal (files : LinkFiles) (hplanes : 0 < p.numPlanes) {i : ℕ}
    (hi : i < p.totalRouters) : numLinks (links p files) .connTerminal i = p.cnRadix := by
  have hnot : ∀ (ty : NetMan.ConnectionType) (l : Link), ty ≠ .connTerminal →
      decide (l.connType = .connTerminal ∧ l.srcGid = (i : ℤ)) = true → l.connType ≠ ty := by
    rintro ty l hty hP rfl
    exact hty (of_decide_eq_true hP).1
  rw [numLinks, links, List.countP_append, List.countP_append,
    countP_localLinks fun l => hnot _ l (by decide), countP_globalLinks fun l =>
    hnot _ l (by decide), countP_terminalLinks_eq, Nat.zero_add, Nat.add_zero]
  have hrow : ∀ t ∈ List.range p.totalTerminals, ((List.range p.numRails).countP fun j =>
      decide ((terminalLink (p.assignedRouterId t j) t j).connType = .connTerminal ∧
        (terminalLink (p.assignedRouterId t j) t j).srcGid = (i : ℤ))) =
      if p.numPlanes = 1 then if t / p.numCn = i then p.numRails else 0
      else if t / p.numCn = i % p.routersPerPlane then 1 else 0 := by
    intro t ht
    rw [← countP_assigned hplanes (List.mem_range.1 ht) hi]
    exact List.countP_congr fun j _ => by simp [terminalLink]
  rw [List.map_congr_left hrow]
  by_cases hone : p.numPlanes = 1
  · simp only [if_pos hone]
    rw [sum_map_ite, Param.totalTerminals, hone, Nat.div_one, countP_div_eq hi, Param.cnRadix, hone,
      Nat.div_one]
  · simp only [if_neg hone]
    have htotal : p.totalTerminals = p.routersPerPlane * p.numCn := by
      rw [Param.totalTerminals, totalRouters_eq, Nat.mul_right_comm, Nat.mul_div_cancel _ hplanes]
    have hper : 0 < p.routersPerPlane := Nat.pos_of_ne_zero fun h => by
      rw [totalRouters_eq, h] at hi
      omega
    rw [sum_map_ite, htotal, countP_div_eq (Nat.mod_lt _ hper), Param.cnRadix,
      ← p.planes_eq.resolve_left hone, Nat.mul_div_cancel _ hplanes, Nat.mul_one]

end CodesSim.Dally
