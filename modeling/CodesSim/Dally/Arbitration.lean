import CodesSim.Dally.Delivery

/-!
# The choice of the level that sends

A terminal chooses a QoS level (`getNextVcg`), a router a virtual channel (`getNextRouterVcg`).
Both are meant to serve the lowest level within its share of the bandwidth that can send, and to go
round the slots if there is none, from the one served last (`Arbitrates`).

Before they choose they look at the bandwidth that each level has used, and this fails for a level
that has no name and, at a router, for a port behind the number of global channels (`Measured`).
Then the router does what it is meant to (`chosen_arbitrates`).  The terminal computes the
round-robin slot and records it, but it looks at the levels from 0 on and returns the first that can
send.  So it does what it is meant to unless it comes to this, and there only after the last level
(`chosen_iff`).
-/

namespace CodesSim.Dally

/-! ### What is meant -/

/-- **Priority, then round robin** among `n` slots, each of a level: the slot `next` is chosen when
`last` was served last, and `last'` is recorded. -/
structure Arbitrates (n : ℕ) (levelOf : ℕ → ℕ) (active sendable : ℕ → Bool) (last : ℕ)
    (next : Option ℕ) (last' : ℕ) : Prop where
  none_iff : next = none ↔ ∀ i < n, sendable i = false
  chosen : ∀ i, next = some i → i < n ∧ sendable i = true
  /-- The lowest level within its share is served. -/
  lowest : ∀ j < n, active (levelOf j) = true → sendable j = true →
    ∃ i, next = some i ∧ active (levelOf i) = true ∧ levelOf i ≤ levelOf j
  /-- If there is none, the first slot after the last one is served and recorded. -/
  cyclic : (∀ j < n, active (levelOf j) = true → sendable j = false) → ∀ i, next = some i →
    last' = i ∧ ∃ d < n, i = (last + 1 + d) % n ∧ ∀ e < d, sendable ((last + 1 + e) % n) = false

/-- Going round reaches every slot. -/
theorem exists_ahead {n j : ℕ} (hj : j < n) (last : ℕ) : ∃ d < n, (last + 1 + d) % n = j := by
  have hlt := Nat.mod_lt (last + 1) (show 0 < n by omega)
  refine ⟨(j + (n - (last + 1) % n)) % n, Nat.mod_lt _ (by omega), ?_⟩
  rw [Nat.add_mod_mod, ← Nat.mod_add_mod]
  rw [show (last + 1) % n + (j + (n - (last + 1) % n)) = j + n by omega, Nat.add_mod_right,
    Nat.mod_eq_of_lt hj]

/-! ### Bandwidth -/

section Bandwidth

variable (p : Param)

/-- A level of a rail has used up its share of the bandwidth in this window. -/
def Rail.overShare (r : Rail) (i : ℕ) : Bool :=
  percentBw (r.qosData i) p.cnBandwidth > p.qosBandwidths i

/-- A level of a rail is within its share. -/
def Rail.withinShare (r : Rail) (i : ℕ) : Bool := r.qosStatus i = .active && !r.overShare p i

/-- A level of a port has used up its share of the bandwidth in this window. -/
def Port.overShare (port : ℕ) (x : Port) (i : ℕ) : Bool :=
  percentBw (x.qosData i) (truncate (linkSpeed p (portClass p port)).1) > p.qosBandwidths i

/-- A level of a port is within its share. -/
def Port.withinShare (port : ℕ) (x : Port) (i : ℕ) : Bool :=
  x.qosStatus i = .active && !x.overShare p port i

variable {p}

/-- The statuses after the shares of some levels have been looked at. -/
def markOver (isOver : ℕ → Bool) (levels : List ℕ) (status : ℕ → QosStatus) (i : ℕ) : QosStatus :=
  if i ∈ levels ∧ isOver i = true then .overBw else status i

@[simp] theorem markOver_nil (isOver : ℕ → Bool) (status : ℕ → QosStatus) :
    markOver isOver [] status = status := by
  funext i
  simp [markOver]

theorem markOver_cons (isOver : ℕ → Bool) (k : ℕ) (levels : List ℕ) (status : ℕ → QosStatus) :
    markOver isOver levels (if status k ≠ .overBw ∧ isOver k = true then
      Function.update status k .overBw else status) = markOver isOver (k :: levels) status := by
  funext i
  simp only [markOver, List.mem_cons]
  by_cases hk : i = k
  · subst hk
    by_cases hover : isOver i = true <;> by_cases hs : status i = .overBw <;> simp [hover, hs]
  · by_cases hs : status k ≠ .overBw ∧ isOver k = true <;> simp [hs, hk]

section Marks

variable {σ : Type} {f : (ℕ → QosStatus) → σ} {isOver : ℕ → Bool} {ok : ℕ → Prop}
  {check : σ × Saved → ℕ → Option (σ × Saved)}

section

variable (hok : ∀ st sv k, (st k ≠ .overBw → ok k) → ∃ sv', check (f st, sv) k = some
    (f (if st k ≠ .overBw ∧ isOver k = true then Function.update st k .overBw else st), sv'))
include hok

/-- **What the look at the shares changes**, if each of the levels can be looked at. -/
theorem foldlM_marks
    (levels : List ℕ) (st : ℕ → QosStatus) (sv : Saved)
    (h : ∀ k ∈ levels, st k ≠ .overBw → ok k) :
    ∃ sv', levels.foldlM check (f st, sv) = some (f (markOver isOver levels st), sv') := by
  induction levels generalizing st sv with
  | nil => exact ⟨sv, by rw [markOver_nil]; rfl⟩
  | cons k levels ih =>
    obtain ⟨sv₁, hk⟩ := hok st sv k (h k List.mem_cons_self)
    obtain ⟨sv₂, hrest⟩ := ih (if st k ≠ .overBw ∧ isOver k = true then
      Function.update st k .overBw else st) sv₁ fun j hj hne => by
        split_ifs at hne
        · refine h j (List.mem_cons_of_mem _ hj) fun hst => hne ?_
          by_cases hjk : j = k
          · rw [hjk, Function.update_self]
          · rw [Function.update_of_ne hjk, hst]
        · exact h j (List.mem_cons_of_mem _ hj) hne
    refine ⟨sv₂, ?_⟩
    rw [List.foldlM_cons, hk, ← markOver_cons]
    exact hrest

/-- A level that cannot be looked at is come to. -/
theorem foldlM_marks_none
    (hfail : ∀ st sv k, st k ≠ .overBw → ¬ok k → check (f st, sv) k = none)
    (levels : List ℕ) (st : ℕ → QosStatus) (sv : Saved) {j : ℕ} (hj : j ∈ levels)
    (hne : st j ≠ .overBw) (hnot : ¬ok j) : levels.foldlM check (f st, sv) = none := by
  induction levels generalizing st sv with
  | nil => cases hj
  | cons k levels ih =>
    rw [List.foldlM_cons]
    by_cases hk : st k ≠ .overBw → ok k
    · obtain ⟨sv', hcheck⟩ := hok st sv k hk
      have hjk : j ≠ k := fun heq => hnot (heq ▸ hk (heq ▸ hne))
      rw [hcheck]
      refine ih _ sv' ((List.mem_cons.1 hj).resolve_left hjk) ?_
      split_ifs
      · rwa [Function.update_of_ne hjk]
      · exact hne
    · obtain ⟨hstatus, hbad⟩ := Classical.not_imp.1 hk
      rw [hfail st sv k hstatus hbad]
      rfl

end

end Marks

/-- The levels of a rail whose use is looked at have a name. -/
def Rail.Measured (p : Param) (r : Rail) : Prop :=
  ∀ k < p.numQosLevels, r.qosStatus k ≠ .overBw → k ≤ qLow

/-- So have those of a port, and the port is not behind the number of global channels. -/
def Port.Measured (p : Param) (port : ℕ) (x : Port) : Prop :=
  p.numQosLevels = 1 ∨ ∀ k < p.numQosLevels, x.qosStatus k ≠ .overBw →
    k ≤ qLow ∧ port < p.intraGrpRadix + p.numGlobalChannels + p.cnRadix

theorem Rail.checkBw_ok (r : Rail) (st : ℕ → QosStatus) (sv : Saved) (k : ℕ)
    (h : st k ≠ .overBw → k ≤ qLow) : ∃ sv', Rail.checkBw p ({ r with qosStatus := st }, sv) k =
      some ({ r with qosStatus := if st k ≠ .overBw ∧ r.overShare p k = true then
        Function.update st k .overBw else st }, sv') := by
  simp only [Rail.checkBw, getTermBandwidthConsumption, Rail.overShare, decide_eq_true_eq]
  by_cases hst : st k ≠ .overBw
  · rw [if_pos hst, if_pos (h hst)]
    by_cases hover : percentBw (r.qosData k) p.cnBandwidth > p.qosBandwidths k
    · exact ⟨_, by simp [hover, hst]; rfl⟩
    · exact ⟨sv, by simp [hover]⟩
  · exact ⟨sv, by rw [if_neg hst, if_neg fun h => hst h.1]⟩

theorem Rail.checkBw_fail (r : Rail) (st : ℕ → QosStatus) (sv : Saved) (k : ℕ)
    (hst : st k ≠ .overBw) (h : ¬k ≤ qLow) :
    Rail.checkBw p ({ r with qosStatus := st }, sv) k = none := by
  simp [Rail.checkBw, getTermBandwidthConsumption, hst, h]

theorem Port.checkBw_ok (port : ℕ) (x : Port) (st : ℕ → QosStatus) (sv : Saved) (k : ℕ)
    (h : st k ≠ .overBw → k ≤ qLow ∧ port < p.intraGrpRadix + p.numGlobalChannels + p.cnRadix) :
    ∃ sv', Port.checkBw p port ({ x with qosStatus := st }, sv) k =
      some ({ x with qosStatus := if st k ≠ .overBw ∧ x.overShare p port k = true then
        Function.update st k .overBw else st }, sv') := by
  simp only [Port.checkBw, getRtrBandwidthConsumption, Port.overShare, decide_eq_true_eq]
  by_cases hst : st k ≠ .overBw
  · rw [if_pos hst, if_pos (h hst)]
    by_cases hover : percentBw (x.qosData k) (truncate (linkSpeed p (portClass p port)).1) >
        p.qosBandwidths k
    · exact ⟨_, by simp [hover, hst]; rfl⟩
    · exact ⟨sv, by simp [hover]⟩
  · exact ⟨sv, by rw [if_neg hst, if_neg fun h => hst h.1]⟩

theorem Port.checkBw_fail (port : ℕ) (x : Port) (st : ℕ → QosStatus) (sv : Saved) (k : ℕ)
    (hst : st k ≠ .overBw)
    (h : ¬(k ≤ qLow ∧ port < p.intraGrpRadix + p.numGlobalChannels + p.cnRadix)) :
    Port.checkBw p port ({ x with qosStatus := st }, sv) k = none := by
  simp [Port.checkBw, getRtrBandwidthConsumption, hst, h]

theorem markOver_eq_active {isOver : ℕ → Bool} {status : ℕ → QosStatus} {n i : ℕ} (hi : i < n) :
    markOver isOver (List.range n) status i = .active ↔
    (status i = .active ∧ isOver i = false) := by
  rw [markOver]
  by_cases hover : isOver i = true
  · simp [hover, hi]
  · simp [hover]

end Bandwidth

/-! ### The terminal -/

section Terminal

variable {p : Param} {r : Rail}

/-- **What `get_next_vcg` chooses and records.** -/
theorem getNextVcg_choice (sv : Saved) (hlast : r.lastQosLvl < p.numQosLevels) (h : r.Measured p) :
    ∃ y, getNextVcg p r sv = some y ∧ (y.1, y.2.2.1.lastQosLvl) =
      match (List.range p.numQosLevels).find? fun i => r.withinShare p i && r.sendable p i with
      | some i => (some i, r.lastQosLvl)
      | none => match (List.range p.numQosLevels).find? (r.sendable p) with
        | some i => (some i, (r.lastQosLvl + 1 + i) % p.numQosLevels)
        | none => (none, r.lastQosLvl) := by
  by_cases hone : p.numQosLevels = 1
  · refine ⟨_, by rw [getNextVcg, if_pos hone], ?_⟩
    rw [hone] at hlast
    rw [hone]
    cases hs : r.sendable p 0 <;> cases hw : r.withinShare p 0 <;>
      simp [List.range_succ, hs, hw, Nat.lt_one_iff.1 hlast]
  · obtain ⟨sv', hmarks⟩ := foldlM_marks (f := fun st => { r with qosStatus := st })
      (Rail.checkBw_ok r) (List.range p.numQosLevels) r.qosStatus sv
      fun k hk => h k (List.mem_range.1 hk)
    refine ⟨_, by rw [getNextVcg, if_neg hone, hmarks, Option.map_some], ?_⟩
    have hfind : (List.range p.numQosLevels).find? (fun i =>
        markOver (r.overShare p) (List.range p.numQosLevels) r.qosStatus i = .active &&
          r.sendable p i) =
        (List.range p.numQosLevels).find? fun i => r.withinShare p i && r.sendable p i := by
      rw [← List.head?_filter, ← List.head?_filter]
      refine congrArg List.head? (List.filter_congr fun i hi => ?_)
      simp only [markOver_eq_active (List.mem_range.1 hi), Rail.withinShare, Bool.decide_and,
        Bool.decide_eq_false]
    have hsend : ∀ status, Rail.sendable p { r with qosStatus := status } = r.sendable p :=
      fun _ => rfl
    simp only [chooseVcg, hsend, hfind]
    cases (List.range p.numQosLevels).find? fun i => r.withinShare p i && r.sendable p i with
    | some i => rfl
    | none => cases (List.range p.numQosLevels).find? (r.sendable p) <;> rfl

theorem getNextVcg_of_not_measured (sv : Saved) (h : ¬r.Measured p) : getNextVcg p r sv = none := by
  simp only [Rail.Measured, Classical.not_forall] at h
  obtain ⟨k, hk, hst, hlow⟩ := h
  have hone : p.numQosLevels ≠ 1 := fun hone => hlow (by omega)
  have hnone : (List.range p.numQosLevels).foldlM (Rail.checkBw p) (r, sv) = none :=
    foldlM_marks_none (f := fun st => { r with qosStatus := st }) (Rail.checkBw_ok r)
      (Rail.checkBw_fail r) _ r.qosStatus sv (List.mem_range.2 hk) hst hlow
  rw [getNextVcg, if_neg hone, hnone, Option.map_none]

/-- **When the level chosen is the one meant.** -/
theorem chosen_iff {next : Option ℕ} {last : ℕ} (hlast : r.lastQosLvl < p.numQosLevels)
    (hchoice : (next, last) =
      match (List.range p.numQosLevels).find? fun i => r.withinShare p i && r.sendable p i with
      | some i => (some i, r.lastQosLvl)
      | none => match (List.range p.numQosLevels).find? (r.sendable p) with
        | some i => (some i, (r.lastQosLvl + 1 + i) % p.numQosLevels)
        | none => (none, r.lastQosLvl)) :
    Arbitrates p.numQosLevels id (r.withinShare p) (r.sendable p) r.lastQosLvl next last ↔
      (∃ i < p.numQosLevels, r.withinShare p i = true ∧ r.sendable p i = true) ∨
        (∀ i < p.numQosLevels, r.sendable p i = false) ∨ r.lastQosLvl + 1 = p.numQosLevels := by
  cases hactive : (List.range p.numQosLevels).find? fun i =>
    r.withinShare p i && r.sendable p i with
  | some i =>
    obtain ⟨hi, hmem, hleast⟩ := List.find?_range_eq_some.1 hactive
    obtain ⟨hwithin, hsend⟩ := Bool.and_eq_true_iff.1 hi
    have hlt := List.mem_range.1 hmem
    simp only [hactive] at hchoice
    obtain ⟨hnext, hrec⟩ := Prod.mk.inj hchoice
    rw [hnext, hrec]
    refine iff_of_true ⟨⟨nofun, fun hnone => ?_⟩, fun j hj => ?_, fun j hj hw hs => ?_,
      fun hnone => ?_⟩ (.inl ⟨i, hlt, hwithin, hsend⟩)
    · exact absurd (hnone i hlt) (by simp [hsend])
    · cases hj
      exact ⟨hlt, hsend⟩
    · refine ⟨i, rfl, hwithin, Nat.le_of_not_lt fun hji => ?_⟩
      have hnot := hleast j hji
      rw [id] at hw
      simp [hw, hs] at hnot
    · exact absurd (hnone i hlt hwithin) (by simp [hsend])
  | none =>
    have hnot := List.find?_range_eq_none.1 hactive
    simp only [hactive] at hchoice
    have hno : ∀ j < p.numQosLevels, r.withinShare p j = true → r.sendable p j = false := by
      intro j hj hw
      simpa [hw] using hnot j hj
    have hleft : ¬ ∃ i < p.numQosLevels, r.withinShare p i = true ∧ r.sendable p i = true := by
      rintro ⟨j, hj, hw, hs⟩
      exact absurd (hno j hj hw) (by simp [hs])
    cases hany : (List.range p.numQosLevels).find? (r.sendable p) with
    | some i =>
      obtain ⟨hsend, hmem, hleast⟩ := List.find?_range_eq_some.1 hany
      have hlt := List.mem_range.1 hmem
      simp only [hany] at hchoice
      obtain ⟨hnext, hrec⟩ := Prod.mk.inj hchoice
      rw [hnext, hrec, or_iff_right hleft, or_iff_right fun hnone =>
        absurd (hnone i hlt) (by simp [hsend])]
      constructor
      · intro harb
        -- the level that is recorded is not the one returned
        have hrec := (harb.cyclic hno i rfl).1
        by_contra hne
        rcases Nat.lt_or_ge (r.lastQosLvl + 1 + i) p.numQosLevels with h | h
        · rw [Nat.mod_eq_of_lt h] at hrec
          omega
        · rw [Nat.mod_eq_sub_mod h, Nat.mod_eq_of_lt (by omega)] at hrec
          omega
      · intro hend
        have hround : ∀ e < p.numQosLevels, (r.lastQosLvl + 1 + e) % p.numQosLevels = e := by
          intro e he
          rw [hend, Nat.add_mod_left, Nat.mod_eq_of_lt he]
        refine ⟨⟨nofun, fun hnone => absurd (hnone i hlt) (by simp [hsend])⟩, fun j hj => ?_,
          fun j hj hw hs => absurd (hno j hj hw) (by simp [hs]), fun _ j hj => ?_⟩
        · cases hj
          exact ⟨hlt, hsend⟩
        · cases hj
          refine ⟨hround i hlt, i, hlt, (hround i hlt).symm, fun e he => ?_⟩
          rw [hround e (he.trans hlt)]
          simpa using hleast e he
    | none =>
      have hall : ∀ j < p.numQosLevels, r.sendable p j = false := by
        simpa using List.find?_range_eq_none.1 hany
      simp only [hany] at hchoice
      obtain ⟨hnext, hrec⟩ := Prod.mk.inj hchoice
      rw [hnext, hrec]
      exact iff_of_true ⟨⟨fun _ => hall, fun _ => rfl⟩, nofun,
        fun j hj _ hs => absurd (hall j hj) (by simp [hs]), fun _ => nofun⟩ (.inr (.inl hall))

end Terminal

/-! ### The router -/

section Router

variable {p : Param} {x : Port}

theorem vcsPerQos_pos (p : Param) : 0 < p.vcsPerQos := by
  have hpos := p.numQosLevels_pos
  rw [Param.vcsPerQos, Param.numVcs]
  split_ifs with h
  · rw [Nat.mul_div_cancel_left _ hpos]
    decide
  · rw [show p.numQosLevels = 1 by omega]
    decide

theorem numVcs_eq (p : Param) : p.numVcs = p.numQosLevels * p.vcsPerQos := by
  have hpos := p.numQosLevels_pos
  rw [Param.vcsPerQos, Param.numVcs]
  split_ifs with h
  · rw [Nat.mul_div_cancel_left _ hpos]
  · rw [show p.numQosLevels = 1 by omega]

theorem mem_vcsOf {lvl k : ℕ} : k ∈ vcsOf p lvl ↔ k / p.vcsPerQos = lvl := by
  have hpos := vcsPerQos_pos p
  rw [vcsOf, List.mem_map]
  constructor
  · rintro ⟨c, hc, rfl⟩
    rw [Nat.mul_comm, Nat.mul_add_div hpos, Nat.div_eq_of_lt (List.mem_range.1 hc), Nat.add_zero]
  · rintro rfl
    exact ⟨k % p.vcsPerQos, List.mem_range.2 (Nat.mod_lt _ hpos), Nat.div_add_mod' k _⟩

theorem firstPending_eq_some {q : ℕ → Bool} {k : ℕ} (h : x.firstPending p q = some k) :
    k < p.numVcs ∧ x.hasPending k = true ∧ q (k / p.vcsPerQos) = true ∧
      ∀ j < p.numVcs, q (j / p.vcsPerQos) = true → x.hasPending j = true →
        k / p.vcsPerQos ≤ j / p.vcsPerQos := by
  rw [Port.firstPending, List.find?_flatMap] at h
  obtain ⟨before, lvl, behind, heq, hlvl, hnone⟩ := List.findSome?_eq_some_iff.1 h
  have hk := mem_vcsOf.1 (List.mem_of_find?_eq_some hlvl)
  have hmem : lvl ∈ (List.range p.numQosLevels).filter q := by
    rw [heq]
    exact List.mem_append_right _ List.mem_cons_self
  obtain ⟨hrange, hq⟩ := List.mem_filter.1 hmem
  have hlt := List.mem_range.1 hrange
  have hdiv : ∀ {j}, j / p.vcsPerQos < p.numQosLevels ↔ j < p.numVcs := by
    intro j
    rw [numVcs_eq, Nat.div_lt_iff_lt_mul (vcsPerQos_pos p)]
  refine ⟨hdiv.1 (hk ▸ hlt), List.find?_some hlvl, hk ▸ hq, fun j hj hqj hpend => ?_⟩
  rw [hk]
  have hj' : j / p.vcsPerQos ∈ before ++ lvl :: behind :=
    heq ▸ List.mem_filter.2 ⟨List.mem_range.2 (hdiv.2 hj), hqj⟩
  have hsorted : (before ++ lvl :: behind).Pairwise (· < ·) :=
    heq ▸ List.pairwise_lt_range.filter _
  rcases List.mem_append.1 hj' with hb | hb
  · -- a lower level would have been found first
    have := List.find?_eq_none.1 (hnone _ hb) j (mem_vcsOf.2 rfl)
    exact absurd hpend this
  · rcases List.mem_cons.1 hb with hb | hb
    · exact hb.ge
    · exact (List.rel_of_pairwise_cons (List.pairwise_append.1 hsorted).2.1 hb).le

theorem firstPending_eq_none {q : ℕ → Bool} (h : x.firstPending p q = none) :
    ∀ j < p.numVcs, q (j / p.vcsPerQos) = true → x.hasPending j = false := by
  intro j hj hq
  rw [Port.firstPending, List.find?_eq_none] at h
  have hmem : j ∈ ((List.range p.numQosLevels).filter q).flatMap (vcsOf p) := by
    refine List.mem_flatMap.2 ⟨j / p.vcsPerQos, List.mem_filter.2 ⟨List.mem_range.2 ?_, hq⟩,
      mem_vcsOf.2 rfl⟩
    rwa [Nat.div_lt_iff_lt_mul (vcsPerQos_pos p), ← numVcs_eq]
  simpa using h j hmem

theorem rrPending_eq_some {k : ℕ} (h : x.rrPending p = some k) : x.hasPending k = true ∧
    ∃ d < p.numVcs, k = (x.lastQosLvl + 1 + d) % p.numVcs ∧
      ∀ e < d, x.hasPending ((x.lastQosLvl + 1 + e) % p.numVcs) = false := by
  rw [Port.rrPending, List.find?_map] at h
  obtain ⟨d, hd, rfl⟩ := Option.map_eq_some_iff.1 h
  obtain ⟨hpend, hmem, hleast⟩ := List.find?_range_eq_some.1 hd
  exact ⟨hpend, d, List.mem_range.1 hmem, rfl, fun e he => by simpa using hleast e he⟩

theorem rrPending_eq_none (h : x.rrPending p = none) : ∀ j < p.numVcs, x.hasPending j = false := by
  intro j hj
  rw [Port.rrPending, List.find?_eq_none] at h
  obtain ⟨d, hd, heq⟩ := exists_ahead hj x.lastQosLvl
  have := h j (List.mem_map.2 ⟨d, List.mem_range.2 hd, heq⟩)
  simpa using this

theorem firstPending_markOver (port : ℕ) : x.firstPending p (fun i =>
    markOver (x.overShare p port) (List.range p.numQosLevels) x.qosStatus i = .active) =
      x.firstPending p (x.withinShare p port) := by
  rw [Port.firstPending, Port.firstPending]
  refine congrArg (fun l => List.find? x.hasPending (l.flatMap (vcsOf p)))
    (List.filter_congr fun i hi => ?_)
  simp only [markOver_eq_active (List.mem_range.1 hi), Port.withinShare, Bool.decide_and,
    Bool.decide_eq_false]

variable {port : ℕ}

/-- **What `get_next_router_vcg` chooses and records.** -/
theorem getNextRouterVcg_choice (sv : Saved) (h : x.Measured p port) :
    ∃ y, getNextRouterVcg p port x sv = some y ∧ (y.1, y.2.1.lastQosLvl) =
      match if p.numQosLevels > 1 then x.firstPending p (x.withinShare p port) else none with
      | some k => (some k, x.lastQosLvl)
      | none => match x.rrPending p with
        | some k => (some k, k)
        | none => (none, x.lastQosLvl) := by
  by_cases hmany : p.numQosLevels > 1
  · obtain ⟨sv', hmarks⟩ := foldlM_marks (f := fun st => { x with qosStatus := st })
      (Port.checkBw_ok port x) (List.range p.numQosLevels) x.qosStatus sv
      fun k hk => h.resolve_left (by omega) k (List.mem_range.1 hk)
    refine ⟨_, by rw [getNextRouterVcg, if_pos hmany, hmarks, Option.map_some], ?_⟩
    have hfirst : ∀ status, Port.firstPending p { x with qosStatus := status } = x.firstPending p :=
      fun _ => rfl
    have hrr : ∀ status, Port.rrPending p { x with qosStatus := status } = x.rrPending p :=
      fun _ => rfl
    simp only [chooseRouterVcg, if_pos hmany, hfirst, hrr, firstPending_markOver]
    cases x.firstPending p (x.withinShare p port) with
    | some k => rfl
    | none => cases x.rrPending p <;> rfl
  · refine ⟨_, by rw [getNextRouterVcg, if_neg hmany, Option.map_some], ?_⟩
    simp only [chooseRouterVcg, if_neg hmany]
    cases x.rrPending p <;> rfl

theorem getNextRouterVcg_of_not_measured (sv : Saved) (h : ¬x.Measured p port) :
    getNextRouterVcg p port x sv = none := by
  obtain ⟨hone, h⟩ := not_or.1 h
  simp only [Classical.not_forall] at h
  obtain ⟨k, hk, hst, hbad⟩ := h
  have hnone : (List.range p.numQosLevels).foldlM (Port.checkBw p port) (x, sv) = none :=
    foldlM_marks_none (f := fun st => { x with qosStatus := st }) (Port.checkBw_ok port x)
      (Port.checkBw_fail port x) _ x.qosStatus sv (List.mem_range.2 hk) hst hbad
  rw [getNextRouterVcg, if_pos (by omega), hnone, Option.map_none]

/-- **The VC chosen is the one meant.** -/
theorem chosen_arbitrates {next : Option ℕ} {last : ℕ} (hchoice : (next, last) =
      match if p.numQosLevels > 1 then x.firstPending p (x.withinShare p port) else none with
      | some k => (some k, x.lastQosLvl)
      | none => match x.rrPending p with
        | some k => (some k, k)
        | none => (none, x.lastQosLvl)) :
    Arbitrates p.numVcs (· / p.vcsPerQos) (x.withinShare p port) x.hasPending x.lastQosLvl next
      last := by
  cases hfirst : if p.numQosLevels > 1 then x.firstPending p (x.withinShare p port) else none with
  | some k =>
    simp only [hfirst] at hchoice
    obtain ⟨hnext, hrec⟩ := Prod.mk.inj hchoice
    rw [hnext, hrec]
    split_ifs at hfirst
    obtain ⟨hlt, hpend, hwithin, hleast⟩ := firstPending_eq_some hfirst
    refine ⟨⟨nofun, fun hnone => ?_⟩, fun j hj => ?_,
      fun j hj hw hs => ⟨k, rfl, hwithin, hleast j hj hw hs⟩, fun hnone => ?_⟩
    · exact absurd (hnone k hlt) (by simp [hpend])
    · cases hj
      exact ⟨hlt, hpend⟩
    · exact absurd (hnone k hlt hwithin) (by simp [hpend])
  | none =>
    simp only [hfirst] at hchoice
    cases hrr : x.rrPending p with
    | some k =>
      simp only [hrr] at hchoice
      obtain ⟨hnext, hrec⟩ := Prod.mk.inj hchoice
      rw [hnext, hrec]
      obtain ⟨hpend, d, hd, hk, hleast⟩ := rrPending_eq_some hrr
      have hlt : k < p.numVcs := hk ▸ Nat.mod_lt _ (by omega)
      refine ⟨⟨nofun, fun hnone => ?_⟩, fun j hj => ?_, fun j hj hw hs => ?_, fun _ j hj => ?_⟩
      · exact absurd (hnone k hlt) (by simp [hpend])
      · cases hj
        exact ⟨hlt, hpend⟩
      · split_ifs at hfirst with hmany
        · exact absurd (firstPending_eq_none hfirst j hj hw) (by simp [hs])
        · -- all VCs belong to the one level
          have hzero : ∀ i < p.numVcs, i / p.vcsPerQos = 0 := by
            intro i hi
            have hpos := p.numQosLevels_pos
            rw [numVcs_eq, show p.numQosLevels = 1 by omega, Nat.one_mul] at hi
            exact Nat.div_eq_of_lt hi
          refine ⟨k, rfl, ?_, ?_⟩
          · rwa [hzero k hlt, ← hzero j hj]
          · rw [hzero k hlt, hzero j hj]
      · cases hj
        exact ⟨rfl, d, hd, hk, hleast⟩
    | none =>
      have hall := rrPending_eq_none hrr
      simp only [hrr] at hchoice
      obtain ⟨hnext, hrec⟩ := Prod.mk.inj hchoice
      rw [hnext, hrec]
      exact ⟨⟨fun _ => hall, fun _ => rfl⟩, nofun,
        fun j hj _ hs => absurd (hall j hj) (by simp [hs]), fun _ => nofun⟩

end Router

/-! ### Both -/

/-- **When terminals and routers choose as they are meant to**: if each level whose use is looked at
has a name and the port of the router is not behind the number of global channels; at a terminal a
level within its share can send besides, or none at all, or the last level was served last. -/
theorem arbitration_iff (p : Param) (r : Rail) (sv : Saved) (hlast : r.lastQosLvl < p.numQosLevels)
    (port : ℕ) (x : Port) (sv' : Saved) :
    ((∃ y, getNextVcg p r sv = some y ∧ Arbitrates p.numQosLevels id (r.withinShare p)
        (r.sendable p) r.lastQosLvl y.1 y.2.2.1.lastQosLvl) ↔
      r.Measured p ∧
        ((∃ i < p.numQosLevels, r.withinShare p i = true ∧ r.sendable p i = true) ∨
          (∀ i < p.numQosLevels, r.sendable p i = false) ∨ r.lastQosLvl + 1 = p.numQosLevels)) ∧
    ((∃ y, getNextRouterVcg p port x sv' = some y ∧ Arbitrates p.numVcs (· / p.vcsPerQos)
        (x.withinShare p port) x.hasPending x.lastQosLvl y.1 y.2.1.lastQosLvl) ↔
      x.Measured p port) := by
  constructor
  · by_cases h : r.Measured p
    · obtain ⟨y, hy, hchoice⟩ := getNextVcg_choice sv hlast h
      rw [← chosen_iff hlast hchoice, and_iff_right h, hy]
      simp
    · rw [getNextVcg_of_not_measured sv h]
      simp [h]
  · by_cases h : x.Measured p port
    · obtain ⟨y, hy, hchoice⟩ := getNextRouterVcg_choice sv' h
      exact iff_of_true ⟨y, hy, chosen_arbitrates hchoice⟩ h
    · rw [getNextRouterVcg_of_not_measured sv' h]
      simp [h]

/-- Two levels. -/
def twoLevelParam : Param :=
  { unevenParam with numQosLevels := 2, numQosLevels_pos := Nat.two_pos, planes_eq :=
    unevenParam.planes_eq }

/-- Both levels have a chunk and have used up their shares; `last` was served last. -/
def overRail (last : ℕ) : Rail :=
  { Rail.init with
    terminalMsgs := fun _ => [default]
    qosStatus := fun _ => .overBw
    lastQosLvl := last }

/-- After the last level the terminal goes on with the first, and so does a port. -/
theorem arbitration_iff_lastServed : (overRail 1).lastQosLvl < twoLevelParam.numQosLevels ∧
    (∃ y, getNextVcg twoLevelParam (overRail 1) default = some y ∧
      Arbitrates 2 id ((overRail 1).withinShare twoLevelParam)
      ((overRail 1).sendable twoLevelParam) 1
        y.1 y.2.2.1.lastQosLvl) ∧
    ∃ y, getNextRouterVcg twoLevelParam 0 Port.init default = some y ∧
      Arbitrates twoLevelParam.numVcs (· / twoLevelParam.vcsPerQos)
        (Port.init.withinShare twoLevelParam 0) Port.init.hasPending 0 y.1 y.2.1.lastQosLvl := by
  have hlast : (overRail 1).lastQosLvl < twoLevelParam.numQosLevels := by decide
  obtain ⟨hrail, hport⟩ := arbitration_iff twoLevelParam (overRail 1) default hlast 0
    Port.init default
  refine ⟨hlast, hrail.2 ⟨?_, .inr (.inr rfl)⟩, hport.2 (.inr ?_)⟩
  · exact fun k hk _ => Nat.le_of_lt hk
  · exact fun k hk _ => ⟨Nat.le_of_lt hk, by decide⟩

/-- After level 0 the terminal returns level 0 again, and records level 1. -/
theorem level_served_again : ∃ y, getNextVcg twoLevelParam (overRail 0) default = some y ∧
    y.1 = some 0 ∧ y.2.2.1.lastQosLvl = 1 ∧
      ¬ Arbitrates 2 id ((overRail 0).withinShare twoLevelParam)
        ((overRail 0).sendable twoLevelParam) 0 y.1 y.2.2.1.lastQosLvl := by
  refine ⟨_, rfl, rfl, rfl, fun h => ?_⟩
  have hover : ∀ j < 2, (overRail 0).withinShare twoLevelParam (id j) = true →
      (overRail 0).sendable twoLevelParam j = false := fun j _ hw => by
    simp [Rail.withinShare, overRail] at hw
  exact absurd (h.cyclic hover 0 rfl).1 (by decide)

end CodesSim.Dally
