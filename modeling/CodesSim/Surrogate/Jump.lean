import CodesSim.Surrogate.Agreement

/-!
# The numbers of a jump

No running application skips more iterations than it has left, since rounding is monotone and leaves
whole numbers as they are (`resume_le_ending`); the one that is predicted to end first skips all of
them (`exists_resume_eq_ending`).
-/

namespace CodesSim.Surrogate

variable {cfg : Config} {pes : List Pe} {junk : ℕ → ℚ} {pe pe' : Pe} {a : ℕ}

/-! ### Rounding -/

theorem lround_intCast (n : ℤ) : lround n = n := by
  rw [lround]
  split_ifs with h
  · rw [Int.floor_eq_iff]
    constructor <;> linarith
  · rw [Int.ceil_eq_iff]
    constructor <;> linarith

theorem lround_mono {x y : ℚ} (h : x ≤ y) : lround x ≤ lround y := by
  rw [lround, lround]
  split_ifs with hx hy hy
  · exact Int.floor_le_floor (by linarith)
  · exact absurd (hx.trans h) hy
  · have hle : ⌈x - 1 / 2⌉ ≤ 0 := Int.ceil_le.2 (by push_cast; linarith)
    exact hle.trans (Int.floor_nonneg.2 (by linarith))
  · exact Int.ceil_le_ceil (by linarith)

/-! ### The best value -/

section

variable {better : ℚ → ℚ → Prop} [DecidableRel better] {start : ℚ} {n : ℕ} {running : ℕ → Bool}
  {value : ℕ → ℚ}

theorem pick_spec (hasymm : ∀ x y, better x y → ¬ better y x)
    (htrans : ∀ x y z, ¬ better x y → ¬ better y z → ¬ better x z) :
    (pick better start n running value = start ∨
      ∃ a < n, running a ∧ pick better start n running value = value a) ∧
    ¬ better start (pick better start n running value) ∧
    ∀ a < n, running a → ¬ better (value a) (pick better start n running value) := by
  induction n with
  | zero => exact ⟨.inl rfl, fun h => hasymm _ _ h h, fun a ha => absurd ha (Nat.not_lt_zero a)⟩
  | succ n ih =>
    obtain ⟨hfrom, hstart, hbest⟩ := ih
    have hstep : pick better start (n + 1) running value =
        if running n ∧ better (value n) (pick better start n running value) then value n
        else pick better start n running value := by
      rw [pick, List.range_succ, List.foldl_append]
      rfl
    rw [hstep]
    split_ifs with hn
    · have hworse := hasymm _ _ hn.2
      refine ⟨.inr ⟨n, n.lt_succ_self, hn.1, rfl⟩, htrans _ _ _ hstart hworse, fun a ha hrun => ?_⟩
      obtain ha | rfl := Nat.lt_succ_iff_lt_or_eq.1 ha
      · exact htrans _ _ _ (hbest a ha hrun) hworse
      · exact fun h => hasymm _ _ h h
    · refine ⟨hfrom.imp_right fun ⟨a, ha, hrun, heq⟩ =>
        ⟨a, Nat.lt_succ_of_lt ha, hrun, heq⟩, hstart, fun a ha hrun => ?_⟩
      obtain ha | rfl := Nat.lt_succ_iff_lt_or_eq.1 ha
      · exact hbest a ha hrun
      · exact fun h => hn ⟨hrun, h⟩

theorem pick_lt_spec : (pick (· < ·) start n running value = start ∨
      ∃ a < n, running a ∧ pick (· < ·) start n running value = value a) ∧
    pick (· < ·) start n running value ≤ start ∧
    ∀ a < n, running a → pick (· < ·) start n running value ≤ value a := by
  obtain ⟨h, hstart, hall⟩ := @pick_spec (· < ·) _ start n running value
    (fun _ _ h => h.asymm) fun _ _ _ h h' => not_lt.2 ((not_lt.1 h').trans (not_lt.1 h))
  exact ⟨h, not_lt.1 hstart, fun a ha hrun => not_lt.1 (hall a ha hrun)⟩

theorem pick_gt_spec : (pick (· > ·) start n running value = start ∨
      ∃ a < n, running a ∧ pick (· > ·) start n running value = value a) ∧
    start ≤ pick (· > ·) start n running value ∧
    ∀ a < n, running a → value a ≤ pick (· > ·) start n running value := by
  obtain ⟨h, hstart, hall⟩ := @pick_spec (· > ·) _ start n running value
    (fun _ _ h => h.asymm) fun _ _ _ h h' => not_lt.2 ((not_lt.1 h).trans (not_lt.1 h'))
  exact ⟨h, not_lt.1 hstart, fun a ha hrun => not_lt.1 (hall a ha hrun)⟩

theorem pick_congr {running' : ℕ → Bool} {value' : ℕ → ℚ}
    (hrunning : ∀ a < n, running a = running' a)
    (hvalue : ∀ a < n, running a → value a = value' a) :
    pick better start n running value = pick better start n running' value' := by
  unfold pick
  refine List.foldl_ext _ _ _ fun best a ha => ?_
  have hlt := List.mem_range.1 ha
  rw [← hrunning a hlt]
  by_cases hrun : running a
  · rw [hvalue a hlt hrun]
  · simp [hrun]

end

/-! ### Averages -/

/-- A positive average does not come from the stack. -/
theorem findAvgIterationTime_eq (h : 0 < findAvgIterationTime pes (fun _ => 0) a) :
    findAvgIterationTime pes junk a = findAvgIterationTime pes (fun _ => 0) a := by
  unfold findAvgIterationTime at h ⊢
  split_ifs at h ⊢
  · rfl
  · exact absurd h (lt_irrefl 0)

theorem findAvgTimeForMaxIter_nonneg (h : ∀ pe ∈ pes, pe.Ok) : 0 ≤ findAvgTimeForMaxIter pes a := by
  have htime : 0 ≤ allreduceSum pes fun pe => (((pe.nodesOf a).filter fun node =>
      node.lastIter = findMaxIterPerApp pes a).map NodeData.prevIterationTime).sum := by
    refine List.sum_nonneg fun t ht => ?_
    obtain ⟨pe, hpe, rfl⟩ := List.mem_map.1 ht
    refine List.sum_nonneg fun t ht => ?_
    obtain ⟨data, hdata, rfl⟩ := List.mem_map.1 ht
    exact (h pe hpe).times data (List.mem_filter.1 (List.mem_filter.1 hdata).1).1
  unfold findAvgTimeForMaxIter
  dsimp only
  split_ifs
  · exact div_nonneg htime (Nat.cast_nonneg _)
  · exact htime

/-! ### The jump of a PE -/

/-- The iterations that application `a` has left. -/
def iterationsLeft (pes : List Pe) (pe : Pe) (a : ℕ) : ℤ :=
  (pe.apps a).endingIteration - findMaxIterPerApp pes a

section

variable (havg : 0 < findAvgIterationTime pes junk a)

include havg

theorem endTime_sub_div : (appsEndTime pes junk pe a - findAvgTimeForMaxIter pes a) /
    findAvgIterationTime pes junk a = iterationsLeft pes pe a := by
  rw [appsEndTime, add_sub_cancel_left, mul_div_cancel_right₀ _ havg.ne', iterationsLeft]
  push_cast
  rfl

theorem itersToSkip_le (ha : a < cfg.numApps) (hrunning : isRunning pe a) :
    itersToSkip cfg pes junk pe a ≤ iterationsLeft pes pe a := by
  have hend := (@pick_lt_spec dblMax cfg.numApps (isRunning pe) (appsEndTime pes junk pe)).2.2
    a ha hrunning
  rw [← lround_intCast (iterationsLeft pes pe a), ← endTime_sub_div havg]
  exact lround_mono (div_le_div_of_nonneg_right (sub_le_sub_right hend _) havg.le)

theorem itersToSkip_eq (hend : computeEarliestEndTime cfg pes junk pe = appsEndTime pes junk pe a) :
    itersToSkip cfg pes junk pe a = iterationsLeft pes pe a := by
  rw [itersToSkip, hend, endTime_sub_div havg, lround_intCast]

end

theorem one_lt_itersToSkip (hworth : worthSwitching cfg pes junk pe) (ha : a < cfg.numApps)
    (hrunning : isRunning pe a) : 1 < itersToSkip cfg pes junk pe a := by
  have h := List.all_eq_true.1 hworth a (List.mem_range.2 ha)
  rw [decide_eq_true_eq] at h
  exact h.resolve_left fun hnot => hnot hrunning

theorem exists_earliest
    (h : ∃ a < cfg.numApps, isRunning pe a ∧ appsEndTime pes junk pe a ≤ dblMax) :
    ∃ a < cfg.numApps, isRunning pe a ∧
      computeEarliestEndTime cfg pes junk pe = appsEndTime pes junk pe a := by
  obtain ⟨a, ha, hrunning, hle⟩ := h
  obtain ⟨hfrom, -, hall⟩ :=
    @pick_lt_spec dblMax cfg.numApps (isRunning pe) (appsEndTime pes junk pe)
  obtain hstart | ⟨b, hb, hrun, heq⟩ := hfrom
  · refine ⟨a, ha, hrunning, le_antisymm (hall a ha hrunning) ?_⟩
    rw [computeEarliestEndTime, hstart]
    exact hle
  · exact ⟨b, hb, hrun, heq⟩

theorem appsRestartAtTime_nonneg (hpes : ∀ pe ∈ pes, pe.Ok)
    (havg : 0 < findAvgIterationTime pes junk a) (hskip : 1 < itersToSkip cfg pes junk pe a) :
    0 ≤ appsRestartAtTime cfg pes junk pe a := by
  have hcast : (0 : ℚ) ≤ itersToSkip cfg pes junk pe a := by
    exact_mod_cast (zero_lt_one.trans hskip).le
  exact add_nonneg (findAvgTimeForMaxIter_nonneg hpes) (mul_nonneg hcast havg.le)

end CodesSim.Surrogate
