import CodesSim.Surrogate.Jump

/-!
# Fast forward

The PEs prepare the same jump (`jump_consistent`): every application that is running stops before
its next iteration and resumes at a later one, none after its last, and the one that is predicted to
end first at its last.  A node that runs on iterations is told to jump at one iteration only, until
the director is called again; background noise is told so whenever it asks.
-/

namespace CodesSim.Surrogate

variable {cfg : Config} {pes : List Pe} {junk : ℕ → ℚ} {pe pe' : Pe} {a : ℕ}

/-! ### Preparing a jump -/

theorem prepare_apps (a : ℕ) : ∃ pred,
    (prepareFastForwardJump cfg pes junk pe).1.apps a = { pe.apps a with pred := pred } := by
  unfold prepareFastForwardJump
  dsimp only
  split_ifs
  · by_cases ha : a < cfg.numApps
    · simp only [if_pos ha, setAppPredictionData]
      split
      · exact ⟨_, rfl⟩
      · exact ⟨_, rfl⟩
      · split_ifs
        · exact ⟨_, rfl⟩
        · exact ⟨_, rfl⟩
    · simp only [if_neg ha]
      exact ⟨_, rfl⟩
  · exact ⟨_, rfl⟩

theorem prepare_sameView (a : ℕ) : SameView pe (prepareFastForwardJump cfg pes junk pe).1 a := by
  obtain ⟨pred, heq⟩ := @prepare_apps cfg pes junk pe a
  constructor
  · rw [heq]
  · simp only [isRunning, heq]
  · rw [heq]
    exact fun _ => rfl

theorem isSwitching_iff : (prepareFastForwardJump cfg pes junk pe).2.isSwitching = true ↔
    worthSwitching cfg pes junk pe = true := by
  unfold prepareFastForwardJump
  dsimp only
  split_ifs with h <;> simp [h]

theorem readyToSkip_prepare (hworth : worthSwitching cfg pes junk pe) :
    (prepareFastForwardJump cfg pes junk pe).1.readyToSkip = true := by
  simp only [prepareFastForwardJump, if_pos hworth]

theorem prepare_pred (hworth : worthSwitching cfg pes junk pe) (ha : a < cfg.numApps)
    (htype : (pe.apps a).type = .app) (hrunning : isRunning pe a) :
    ((prepareFastForwardJump cfg pes junk pe).1.apps a).pred =
      ⟨findMaxIterPerApp pes a + 1, findMaxIterPerApp pes a + itersToSkip cfg pes junk pe a,
        appsRestartAtTime cfg pes junk pe a⟩ := by
  simp only [prepareFastForwardJump, if_pos hworth, if_pos ha, setAppPredictionData, htype,
    if_pos hrunning]

theorem prepare_ok (hpes : ∀ pe ∈ pes, pe.Ok) (hpe : pe ∈ pes)
    (havg : ∀ a < cfg.numApps, isRunning pe a → 0 < findAvgIterationTime pes junk a) :
    (prepareFastForwardJump cfg pes junk pe).1.Ok := by
  unfold prepareFastForwardJump
  dsimp only
  split_ifs with hworth
  · have hrestart : ∀ a < cfg.numApps, isRunning pe a → 0 ≤ appsRestartAtTime cfg pes junk pe a :=
      fun a ha hrunning => appsRestartAtTime_nonneg hpes (havg a ha hrunning)
        (one_lt_itersToSkip hworth ha hrunning)
    refine ⟨(hpes pe hpe).times, fun a => ?_⟩
    have hok := (hpes pe hpe).apps a
    by_cases ha : a < cfg.numApps
    · simp only [if_pos ha, setAppPredictionData]
      split
      · exact hok
      · refine ⟨hok.ended, ?_⟩
        obtain ⟨hstart | ⟨b, hb, hrun, heq⟩, -⟩ := @pick_lt_spec dblMax cfg.numApps (isRunning pe)
          (appsRestartAtTime cfg pes junk pe)
        · rw [findEarliestRestartTime, hstart]
          exact sub_nonneg.2 (pow_le_pow_right₀ one_le_two (by omega))
        · rw [findEarliestRestartTime, heq]
          exact hrestart b hb hrun
      · split_ifs with hrunning
        · exact ⟨hok.ended, hrestart a ha hrunning⟩
        · exact hok
    · simp only [if_neg ha]
      exact hok
  · exact hpes pe hpe

/-! ### Runs -/

theorem PositiveAverages.pos (h : PositiveAverages cfg pes) (junk : ℕ → ℚ) (hpe : pe ∈ pes)
    (ha : a < cfg.numApps) (hrunning : isRunning pe a) : 0 < findAvgIterationTime pes junk a := by
  have hpos := h a ha ⟨pe, hpe, hrunning⟩
  rwa [findAvgIterationTime_eq hpos]

theorem mem_prepareAll {junk : ℕ → ℕ → ℚ} {x : Pe × FastForwardValues}
    (h : x ∈ prepareAll cfg pes junk) :
    ∃ k, ∃ pe ∈ pes, x = prepareFastForwardJump cfg pes (junk k) pe := by
  obtain ⟨k, hk, rfl⟩ := List.mem_mapIdx.1 h
  exact ⟨k, _, List.getElem_mem hk, rfl⟩

variable (cfg) in
/-- The PEs after a jump has been prepared. -/
def jumped (pes : List Pe) (junk : ℕ → ℕ → ℚ) : Net :=
  ⟨(prepareAll cfg pes junk).map Prod.fst, true, true⟩

theorem inv_jumped (hok : ∀ pe ∈ pes, pe.Ok) (hagree : Agree cfg pes)
    (havg : PositiveAverages cfg pes) (junk : ℕ → ℕ → ℚ) : Inv cfg (jumped cfg pes junk) := by
  refine ⟨fun pe hpe => ?_, fun _ => rfl, fun _ => hagree.of_view fun pe' hpe' => ?_,
    fun h => (nomatch h)⟩
  · obtain ⟨x, hx, rfl⟩ := List.mem_map.1 hpe
    obtain ⟨k, old, hold, rfl⟩ := mem_prepareAll hx
    exact prepare_ok hok hold fun a ha hrunning => havg.pos (junk k) hold ha hrunning
  · obtain ⟨x, hx, rfl⟩ := List.mem_map.1 hpe'
    obtain ⟨k, old, hold, rfl⟩ := mem_prepareAll hx
    exact ⟨old, hold, fun a _ => prepare_sameView a⟩

variable {net net' : Net}

/-- **One step.** -/
theorem Inv.step {l : Label} (h : Inv cfg net) (hl : Admissible cfg net l)
    (hstep : step cfg net l = some net') : Inv cfg net' := by
  cases l with
  | feed k node iter time =>
    exact h.onPe (fun pe pe' hok hfeed => modelCallsFeed_ok hok hl hfeed) hstep
  | ended k node =>
    refine h.onPe (fun pe pe' hok hended => ?_) hstep
    rw [Option.ite_none_right_eq_some] at hended
    exact modelCallsEnded_ok hok hended.1 hended.2
  | director junk =>
    simp only [Surrogate.step] at hstep
    split_ifs at hstep with hafter
    · cases hstep
      have hdone := h.done hafter
      refine ⟨fun pe hpe => ?_, fun h => (nomatch h), fun _ => reset_agree (h.agree hdone),
        fun hnot => absurd (hdone.symm.trans hnot) (by simp)⟩
      obtain ⟨old, hold, rfl⟩ := List.mem_map.1 hpe
      exact resetWith_ok hold (h.pes old hold)
    · obtain ⟨⟨pes, ready⟩, hready, hnet⟩ := Option.map_eq_some_iff.1 hstep
      obtain ⟨hok, hagree, -⟩ := isPredictorReady_inv h hready
      cases ready with
      | false =>
        cases hnet
        exact ⟨hok, fun h => (nomatch h), fun _ => hagree, fun h => (nomatch h)⟩
      | true =>
        cases hnet
        exact inv_jumped hok hagree (hl (by simpa using hafter) pes hready) junk

/-- **The PEs agree in every run.** -/
theorem inv_of_run {ls : List Label} (h : Inv cfg net)
    (hls : (machine cfg).Meets (Admissible cfg) net ls)
    (hrun : (machine cfg).run net ls = some net') : Inv cfg net' :=
  Machine.run_invariant_of_meets (fun _ _ _ hinv hl hstep => hinv.step hl hstep) h hls hrun

/-! ### The same jump everywhere -/

section

variable {junk' : ℕ → ℚ} (hview : ∀ a < cfg.numApps, SameView pe pe' a)
  (havg : ∀ a < cfg.numApps, isRunning pe a → 0 < findAvgIterationTime pes (fun _ => 0) a)

include hview havg

/-- What a running application's numbers are taken from is the same on all PEs. -/
theorem computeEarliestEndTime_congr :
    computeEarliestEndTime cfg pes junk pe = computeEarliestEndTime cfg pes junk' pe' := by
  refine pick_congr (fun a ha => (hview a ha).running) fun a ha hrunning => ?_
  have hpos := havg a ha hrunning
  rw [appsEndTime, appsEndTime, @findAvgIterationTime_eq pes junk a hpos,
    @findAvgIterationTime_eq pes junk' a hpos, (hview a ha).ending hrunning]

theorem itersToSkip_congr (ha : a < cfg.numApps) (hrunning : isRunning pe a) :
    itersToSkip cfg pes junk pe a = itersToSkip cfg pes junk' pe' a := by
  have hpos := havg a ha hrunning
  rw [itersToSkip, itersToSkip, @computeEarliestEndTime_congr cfg pes junk pe pe' junk' hview havg,
    @findAvgIterationTime_eq pes junk a hpos, @findAvgIterationTime_eq pes junk' a hpos]

theorem appsRestartAtTime_congr (ha : a < cfg.numApps) (hrunning : isRunning pe a) :
    appsRestartAtTime cfg pes junk pe a = appsRestartAtTime cfg pes junk' pe' a := by
  have hpos := havg a ha hrunning
  have hskip : itersToSkip cfg pes junk pe a = itersToSkip cfg pes junk' pe' a :=
    itersToSkip_congr hview havg ha hrunning
  rw [appsRestartAtTime, appsRestartAtTime, hskip, @findAvgIterationTime_eq pes junk a hpos,
    @findAvgIterationTime_eq pes junk' a hpos]

theorem worthSwitching_congr :
    worthSwitching cfg pes junk pe = worthSwitching cfg pes junk' pe' := by
  unfold worthSwitching
  rw [Bool.eq_iff_iff, List.all_eq_true, List.all_eq_true]
  refine forall₂_congr fun a ha => ?_
  have hlt := List.mem_range.1 ha
  rw [decide_eq_true_eq, decide_eq_true_eq, ← (hview a hlt).running]
  by_cases hrunning : isRunning pe a
  · rw [itersToSkip_congr hview havg hlt hrunning]
  · simp [hrunning]

theorem prepare_congr :
    (prepareFastForwardJump cfg pes junk pe).2 = (prepareFastForwardJump cfg pes junk' pe').2 ∧
      (worthSwitching cfg pes junk pe → ∀ a < cfg.numApps,
        ((pe.apps a).type = .app → isRunning pe a →
          ((prepareFastForwardJump cfg pes junk pe).1.apps a).pred =
            ((prepareFastForwardJump cfg pes junk' pe').1.apps a).pred) ∧
        ((pe.apps a).type = .backgroundNoise →
          ((prepareFastForwardJump cfg pes junk pe).1.apps a).pred.restartAt =
            ((prepareFastForwardJump cfg pes junk' pe').1.apps a).pred.restartAt)) := by
  have hworth := @worthSwitching_congr cfg pes junk pe pe' junk' hview havg
  have hpick (better : ℚ → ℚ → Prop) [DecidableRel better] (start : ℚ) :
      pick better start cfg.numApps (isRunning pe) (appsRestartAtTime cfg pes junk pe) =
        pick better start cfg.numApps (isRunning pe') (appsRestartAtTime cfg pes junk' pe') :=
    pick_congr (fun a ha => (hview a ha).running)
      fun a ha hrunning => appsRestartAtTime_congr hview havg ha hrunning
  constructor
  · simp only [prepareFastForwardJump, ← hworth, findLatestRestartTime, hpick]
    split_ifs <;> rfl
  · intro hswitch a ha
    have hswitch' : worthSwitching cfg pes junk' pe' := hworth ▸ hswitch
    have htype' := (hview a ha).type
    constructor
    · intro htype hrunning
      rw [prepare_pred hswitch ha htype hrunning, prepare_pred hswitch' ha (htype'.symm.trans htype)
        ((hview a ha).running ▸ hrunning), itersToSkip_congr hview havg ha hrunning,
        appsRestartAtTime_congr hview havg ha hrunning]
    · intro htype
      simp only [prepareFastForwardJump, if_pos hswitch, if_pos hswitch', if_pos ha,
        setAppPredictionData, htype, htype'.symm.trans htype, findEarliestRestartTime, hpick]

end

/-! ### Between two calls of the director -/

/-- A call of the model. -/
def Label.IsCall : Label → Prop
  | .feed .. | .ended .. => True
  | .director _ => False

theorem Keeps.trans {pe'' : Pe} (h : Keeps pe pe') (h' : Keeps pe' pe'') : Keeps pe pe'' :=
  ⟨fun a => (h'.type a).trans (h.type a), fun a => (h'.ending a).trans (h.ending a),
    fun a => (h'.running a).trans (h.running a), fun a => (h'.numNodes a).trans (h.numNodes a),
    fun a => (h'.pred a).trans (h.pred a), h'.ready.trans h.ready⟩

/-- Each PE keeps what it had before. -/
def KeepsAll (net net' : Net) : Prop :=
  ∀ (k : ℕ) (pe' : Pe), net'.pes[k]? = some pe' → ∃ pe, net.pes[k]? = some pe ∧ Keeps pe pe'

theorem keepsAll_onPe {k : ℕ} {f : Pe → Option Pe} (h : Inv cfg net)
    (hf : ∀ pe pe', pe.Ok → f pe = some pe' → pe'.Ok ∧ Keeps pe pe')
    (hnet : onPe net k f = some net') : KeepsAll net net' := by
  simp only [onPe, Option.bind_eq_some_iff, Option.map_eq_some_iff] at hnet
  obtain ⟨pe, hpe, pe', hpe', rfl⟩ := hnet
  intro j pe₁ hpe₁
  rw [List.getElem?_set] at hpe₁
  split_ifs at hpe₁ with hj hlt
  · cases hpe₁
    exact ⟨pe, hj ▸ hpe, (hf pe pe' (h.pes pe (List.mem_of_getElem? hpe)) hpe').2⟩
  · exact ⟨pe₁, hpe₁, .congr rfl rfl⟩

theorem keepsAll_of_run {ls : List Label} (h : Inv cfg net)
    (hcalls : ∀ l ∈ ls, l.IsCall) (hls : (machine cfg).Meets (Admissible cfg) net ls)
    (hrun : (machine cfg).run net ls = some net') : KeepsAll net net' := by
  induction ls generalizing net with
  | nil =>
    cases hrun
    exact fun k pe hpe => ⟨pe, hpe, .congr rfl rfl⟩
  | cons l ls ih =>
    obtain ⟨net₁, hstep, hrun⟩ := Machine.run_cons_eq_some.1 hrun
    have hrest := ih (h.step hls.1 hstep) (fun l hl => hcalls l (List.mem_cons_of_mem _ hl))
      (hls.2 net₁ hstep) hrun
    have hfirst : KeepsAll net net₁ := by
      cases l with
      | feed k node iter time =>
        exact keepsAll_onPe h (fun pe pe' hok hfeed => modelCallsFeed_ok hok hls.1 hfeed) hstep
      | ended k node =>
        refine keepsAll_onPe h (fun pe pe' hok hended => ?_) hstep
        rw [Option.ite_none_right_eq_some] at hended
        exact modelCallsEnded_ok hok hended.1 hended.2
      | director junk => exact (hcalls _ List.mem_cons_self).elim
    intro k pe' hpe'
    obtain ⟨pe₁, hpe₁, hkeeps₁⟩ := hrest k pe' hpe'
    obtain ⟨pe, hpe, hkeeps⟩ := hfirst k pe₁ hpe₁
    exact ⟨pe, hpe, hkeeps.trans hkeeps₁⟩

/-! ### The jump -/

/-- What a jump is for an application that is running: it stops before its next iteration and
resumes at a later one that is not after its last, when the skipped ones are over on average. -/
structure Jumps (pes : List Pe) (junk : ℕ → ℚ) (pe : Pe) (a : ℕ) (pred : Pred) : Prop where
  jump : pred.jumpAtIter = findMaxIterPerApp pes a + 1
  later : pred.jumpAtIter < pred.resumeAtIter
  ending : pred.resumeAtIter ≤ (pe.apps a).endingIteration
  restart : pred.restartAt = findAvgTimeForMaxIter pes a +
    (pred.resumeAtIter - findMaxIterPerApp pes a) * findAvgIterationTime pes junk a

/-- What a PE tells a node of application `a` that asks whether to jump: at one iteration if it runs
on iterations, always if it is one of background noise. -/
structure Tells (pe : Pe) (node a : ℕ) : Prop where
  app : (pe.apps a).type = .app → ∀ iter, modelCallsHaveWeHitSwitch pe node iter = some true ↔
    iter = (pe.apps a).pred.jumpAtIter
  backgroundNoise : (pe.apps a).type = .backgroundNoise → ∀ iter,
    modelCallsHaveWeHitSwitch pe node iter = some true

theorem tells_of_ready {node : ℕ} {data : NodeData} (hready : pe.readyToSkip = true)
    (hof : pe.appOf node = some (data, a)) : Tells pe node a := by
  constructor <;> intro htype iter <;>
    simp [modelCallsHaveWeHitSwitch, hof, hready, htype]

section

variable (hworth : worthSwitching cfg pes junk pe)
  (htype : ∀ a < cfg.numApps, isRunning pe a → (pe.apps a).type = .app)
  (havg : ∀ a < cfg.numApps, isRunning pe a → 0 < findAvgIterationTime pes junk a)

include hworth htype

theorem restartAt_prepare (ha : a < cfg.numApps) (hrunning : isRunning pe a) :
    ((prepareFastForwardJump cfg pes junk pe).1.apps a).pred.restartAt =
      appsRestartAtTime cfg pes junk pe a := by
  rw [prepare_pred hworth ha (htype a ha hrunning) hrunning]

include havg

theorem jumps_prepare (ha : a < cfg.numApps) (hrunning : isRunning pe a) :
    Jumps pes junk pe a ((prepareFastForwardJump cfg pes junk pe).1.apps a).pred := by
  rw [prepare_pred hworth ha (htype a ha hrunning) hrunning]
  have hskip := one_lt_itersToSkip hworth ha hrunning
  have hle : itersToSkip cfg pes junk pe a ≤ iterationsLeft pes pe a :=
    itersToSkip_le (havg a ha hrunning) ha hrunning
  rw [iterationsLeft] at hle
  refine ⟨rfl, by dsimp only; omega, by dsimp only; omega, ?_⟩
  rw [appsRestartAtTime]
  push_cast
  rw [add_sub_cancel_left]

theorem isGreatest_restart (hpes : ∀ pe ∈ pes, pe.Ok) (hany : ∃ a < cfg.numApps, isRunning pe a) :
    IsGreatest {t | ∃ a < cfg.numApps, isRunning pe a ∧
        ((prepareFastForwardJump cfg pes junk pe).1.apps a).pred.restartAt = t}
      (prepareFastForwardJump cfg pes junk pe).2.restartingAt := by
  have hvalue : (prepareFastForwardJump cfg pes junk pe).2.restartingAt =
      findLatestRestartTime cfg pes junk pe := by
    simp only [prepareFastForwardJump, if_pos hworth]
  obtain ⟨hfrom, -, hall⟩ := @pick_gt_spec 0 cfg.numApps (isRunning pe)
    (appsRestartAtTime cfg pes junk pe)
  rw [hvalue]
  constructor
  · obtain hzero | ⟨a, ha, hrunning, heq⟩ := hfrom
    · -- no time is less than 0, so an application restarts then
      obtain ⟨a, ha, hrunning⟩ := hany
      refine ⟨a, ha, hrunning, ?_⟩
      rw [restartAt_prepare hworth htype ha hrunning]
      refine le_antisymm (hall a ha hrunning) ?_
      rw [findLatestRestartTime, hzero]
      exact appsRestartAtTime_nonneg hpes (havg a ha hrunning)
        (one_lt_itersToSkip hworth ha hrunning)
    · exact ⟨a, ha, hrunning, (restartAt_prepare hworth htype ha hrunning).trans heq.symm⟩
  · rintro t ⟨a, ha, hrunning, rfl⟩
    rw [restartAt_prepare hworth htype ha hrunning]
    exact hall a ha hrunning

theorem exists_resume_eq_ending
    (hend : ∃ a < cfg.numApps, isRunning pe a ∧ appsEndTime pes junk pe a ≤ dblMax) :
    ∃ a < cfg.numApps, isRunning pe a ∧
      ((prepareFastForwardJump cfg pes junk pe).1.apps a).pred.resumeAtIter =
        (pe.apps a).endingIteration := by
  obtain ⟨a, ha, hrunning, hfirst⟩ := exists_earliest hend
  refine ⟨a, ha, hrunning, ?_⟩
  rw [prepare_pred hworth ha (htype a ha hrunning) hrunning]
  dsimp only
  rw [itersToSkip_eq (havg a ha hrunning) hfirst, iterationsLeft]
  omega

end

/-- **The prediction of a jump is consistent.**  In every run with positive averages, if a PE
decides to switch then: every running application jumps as it should; the restart is the latest of
theirs; if some application ends before `DBL_MAX` then one resumes at its last iteration; all PEs
decide and predict the same; and until the director is called again, a node is told to jump at the
iteration of its application only, or always if it is one of background noise. -/
theorem jump_consistent {sizes : List ℕ} {configs : List (ℕ × ℕ × NodeConfig)} {net₀ net : Net}
    {ls : List Label} (hstart : start cfg sizes configs = some net₀)
    (hls : (machine cfg).Meets (Admissible cfg) net₀ ls)
    (hrun : (machine cfg).run net₀ ls = some net)
    (hready : isPredictorReady cfg net = some (pes, true)) (havg : PositiveAverages cfg pes)
    (junk : ℕ → ℕ → ℚ) {k : ℕ} (hpe : pes[k]? = some pe) {pe₁ : Pe} {values : FastForwardValues}
    (hjump : prepareFastForwardJump cfg pes (junk k) pe = (pe₁, values))
    (hswitch : values.isSwitching = true) :
    (∀ a < cfg.numApps, isRunning pe a → Jumps pes (junk k) pe a (pe₁.apps a).pred) ∧
    IsGreatest {t | ∃ a < cfg.numApps, isRunning pe a ∧ (pe₁.apps a).pred.restartAt = t}
      values.restartingAt ∧
    ((∃ a < cfg.numApps, isRunning pe a ∧ appsEndTime pes (junk k) pe a ≤ dblMax) →
      ∃ a < cfg.numApps, isRunning pe a ∧
        (pe₁.apps a).pred.resumeAtIter = (pe.apps a).endingIteration) ∧
    (∀ (k' : ℕ) (pe' : Pe), pes[k']? = some pe' → ∀ pe₁' values',
      prepareFastForwardJump cfg pes (junk k') pe' = (pe₁', values') → values' = values ∧
        ∀ a < cfg.numApps, isRunning pe' a = isRunning pe a ∧
          (isRunning pe a → (pe₁'.apps a).pred = (pe₁.apps a).pred) ∧
          ((pe.apps a).type = .backgroundNoise →
            (pe₁'.apps a).pred.restartAt = (pe₁.apps a).pred.restartAt)) ∧
    ∀ calls net', (∀ l ∈ calls, l.IsCall) →
      (machine cfg).Meets (Admissible cfg) (jumped cfg pes junk) calls →
      (machine cfg).run (jumped cfg pes junk) calls = some net' →
      ∀ (k' : ℕ) (pe' : Pe), net'.pes[k']? = some pe' →
        ∀ node data a, pe'.appOf node = some (data, a) → Tells pe' node a ∧
          (a < cfg.numApps → isRunning pe' a →
            (pe'.apps a).pred.jumpAtIter = findMaxIterPerApp pes a + 1) := by
  have hinv := inv_of_run (inv_start hstart) hls hrun
  obtain ⟨hok, hagree, hany⟩ := isPredictorReady_inv hinv hready
  have hmem := List.mem_of_getElem? hpe
  obtain rfl : (prepareFastForwardJump cfg pes (junk k) pe).1 = pe₁ := congrArg Prod.fst hjump
  obtain rfl : (prepareFastForwardJump cfg pes (junk k) pe).2 = values := congrArg Prod.snd hjump
  have hworth := isSwitching_iff.1 hswitch
  have htype : ∀ a < cfg.numApps, isRunning pe a → (pe.apps a).type = .app :=
    fun a ha => hagree.app a ha pe hmem
  have hpos : ∀ a < cfg.numApps, isRunning pe a → 0 < findAvgIterationTime pes (junk k) a :=
    fun a ha => havg.pos (junk k) hmem ha
  have hzero : ∀ a < cfg.numApps, isRunning pe a → 0 < findAvgIterationTime pes (fun _ => 0) a :=
    fun a ha => havg.pos (fun _ => 0) hmem ha
  refine ⟨fun a ha hrunning => jumps_prepare hworth htype hpos ha hrunning,
    isGreatest_restart hworth htype hpos hok (hany rfl pe hmem),
    exists_resume_eq_ending hworth htype hpos, ?_, ?_⟩
  · rintro k' pe' hpe' pe₁' values' hjump'
    obtain rfl : (prepareFastForwardJump cfg pes (junk k') pe').1 = pe₁' := congrArg Prod.fst hjump'
    obtain rfl : (prepareFastForwardJump cfg pes (junk k') pe').2 = values' :=
      congrArg Prod.snd hjump'
    have hview : ∀ a < cfg.numApps, SameView pe pe' a :=
      fun a ha => hagree.view a ha pe hmem pe' (List.mem_of_getElem? hpe')
    obtain ⟨hvalues, hpreds⟩ :=
      @prepare_congr cfg pes (junk k) pe pe' (junk k') hview hzero
    refine ⟨hvalues.symm, fun a ha =>
      ⟨(hview a ha).running.symm, fun hrunning => ?_, fun hbg => ?_⟩⟩
    · exact ((hpreds hworth a ha).1 (htype a ha hrunning) hrunning).symm
    · exact ((hpreds hworth a ha).2 hbg).symm
  · intro calls net' hcalls hmeets hrun' k' pe' hpe' node data a hof
    obtain ⟨pe₀, hpe₀, hkeeps⟩ :=
      keepsAll_of_run (inv_jumped hok hagree havg junk) hcalls hmeets hrun' k' pe' hpe'
    obtain ⟨old, hold, rfl⟩ : ∃ old, pes[k']? = some old ∧
        (prepareFastForwardJump cfg pes (junk k') old).1 = pe₀ := by
      simpa [jumped, prepareAll] using hpe₀
    have hmem' := List.mem_of_getElem? hold
    have hview : ∀ a < cfg.numApps, SameView pe old a :=
      fun a ha => hagree.view a ha pe hmem old hmem'
    have hworth' : worthSwitching cfg pes (junk k') old := by
      rw [← @worthSwitching_congr cfg pes (junk k) pe old (junk k') hview hzero]
      exact hworth
    refine ⟨tells_of_ready (hkeeps.ready.trans (readyToSkip_prepare hworth')) hof,
      fun ha hrunning => ?_⟩
    rw [hkeeps.running, ← (prepare_sameView a).running] at hrunning
    rw [hkeeps.pred, prepare_pred hworth' ha (hagree.app a ha old hmem' hrunning) hrunning]

/-! ### An application and background noise -/

instance (pes : List Pe) : Decidable (PositiveAverages cfg pes) :=
  inferInstanceAs (Decidable (∀ a < cfg.numApps, _ → _))

/-- An application of ten iterations and background noise, a node each. -/
def appAndNoise : List (ℕ × ℕ × NodeConfig) := [(0, 0, .app 0 10), (0, 1, .backgroundNoise 1)]

/-- Nodes of an application on two PEs, one of them with background noise. -/
def twoPes : List (ℕ × ℕ × NodeConfig) :=
  [(0, 0, .app 0 10), (1, 0, .app 0 10), (1, 1, .backgroundNoise 1)]

/-- The application resumes at its last iteration, also on the second PE. -/
theorem jump_consistent_twoPes : ∃ net₀ net pes pe pe₁ values,
    start ⟨2, 1⟩ [1, 2] twoPes = some net₀ ∧
    (machine ⟨2, 1⟩).run net₀ [.feed 0 0 1 1, .feed 1 0 1 1] = some net ∧
    isPredictorReady ⟨2, 1⟩ net = some (pes, true) ∧ pes[1]? = some pe ∧
    prepareFastForwardJump ⟨2, 1⟩ pes (fun _ => 0) pe = (pe₁, values) ∧
    values.isSwitching = true ∧ ∃ a < 2, isRunning pe a ∧
      (pe₁.apps a).pred.resumeAtIter = (pe.apps a).endingIteration := by
  refine ⟨_, _, _, _, _, _, rfl, rfl, rfl, rfl, rfl, by decide +kernel, ?_⟩
  have hstart : start ⟨2, 1⟩ [1, 2] twoPes = some _ := rfl
  have hmeets (net₀ : Net) :
      (machine ⟨2, 1⟩).Meets (Admissible ⟨2, 1⟩) net₀ [.feed 0 0 1 1, .feed 1 0 1 1] :=
    ⟨zero_le_one' ℚ, fun _ _ => ⟨zero_le_one' ℚ, fun _ _ => trivial⟩⟩
  exact (jump_consistent (k := 1) hstart (hmeets _) rfl rfl (by decide +kernel)
    (fun _ _ => 0) rfl rfl
    (by decide +kernel)).2.2.1 ⟨0, by decide, by decide +kernel, by decide +kernel⟩

/-- Background noise is told to jump at every iteration.  And if every application is predicted to
end after `DBL_MAX`, then none resumes at its last iteration. -/
theorem noise_jumps_always : (∃ net₀ net pes pe pe₁ values,
    start ⟨2, 1⟩ [2] appAndNoise = some net₀ ∧
    (machine ⟨2, 1⟩).run net₀ [.feed 0 0 1 1] = some net ∧
    isPredictorReady ⟨2, 1⟩ net = some (pes, true) ∧ PositiveAverages ⟨2, 1⟩ pes ∧
    pes[0]? = some pe ∧ prepareFastForwardJump ⟨2, 1⟩ pes (fun _ => 0) pe = (pe₁, values) ∧
    values.isSwitching = true ∧ modelCallsHaveWeHitSwitch pe₁ 1 0 = some true ∧
    modelCallsHaveWeHitSwitch pe₁ 1 1 = some true) ∧
    ∃ net₀ net pes pe pe₁ values, start ⟨1, 1⟩ [1] [(0, 0, .app 0 100)] = some net₀ ∧
      (machine ⟨1, 1⟩).run net₀ [.feed 0 0 1 (2 ^ 1021)] = some net ∧
      isPredictorReady ⟨1, 1⟩ net = some (pes, true) ∧ PositiveAverages ⟨1, 1⟩ pes ∧
      pes[0]? = some pe ∧ prepareFastForwardJump ⟨1, 1⟩ pes (fun _ => 0) pe = (pe₁, values) ∧
      values.isSwitching = true ∧
      ¬ ∃ a < 1, isRunning pe a ∧
        (pe₁.apps a).pred.resumeAtIter = (pe.apps a).endingIteration := by
  refine ⟨⟨_, _, _, _, _, _, rfl, rfl, rfl, ?_, rfl, rfl, ?_, ?_, ?_⟩,
    _, _, _, _, _, _, rfl, rfl, rfl, ?_, rfl, rfl, ?_, ?_⟩ <;> decide +kernel

end CodesSim.Surrogate
