import CodesSim.Surrogate.Predictor
import Mathlib.Tactic.Positivity

/-!
# What the PEs know in common

The PEs decide by themselves which applications are running, and each has its own copy of their
types and of the iterations at which they end.  In every run they agree on these (`inv_of_run`): a
node that ends does not bring back an application that has ended everywhere, since all its nodes on
that PE have ended before.
-/

namespace CodesSim.Surrogate

/-! ### The invariant -/

/-- If an application has ended on a PE then all its nodes there have. -/
structure AppData.Ok (app : AppData) : Prop where
  ended : app.type = .app → app.status ≠ .running → app.numNodes ≤ app.nodesThatHaveEnded
  restart : 0 ≤ app.pred.restartAt

structure Pe.Ok (pe : Pe) : Prop where
  times : ∀ data ∈ pe.nodes, 0 ≤ data.prevIterationTime
  apps : ∀ a, (pe.apps a).Ok

variable (cfg : Config)

/-- Two PEs have the same view of application `a`. -/
structure SameView (pe pe' : Pe) (a : ℕ) : Prop where
  type : (pe.apps a).type = (pe'.apps a).type
  running : isRunning pe a = isRunning pe' a
  ending : isRunning pe a → (pe.apps a).endingIteration = (pe'.apps a).endingIteration

/-- The PEs agree, and only applications with iterations are running. -/
structure Agree (pes : List Pe) : Prop where
  view : ∀ a < cfg.numApps, ∀ pe ∈ pes, ∀ pe' ∈ pes, SameView pe pe' a
  app : ∀ a < cfg.numApps, ∀ pe ∈ pes, isRunning pe a → (pe.apps a).type = .app

/-- The PE has not looked at the others yet. -/
structure Fresh (pe : Pe) (a : ℕ) : Prop where
  running : isRunning pe a
  nodes : (pe.apps a).type = .unassigned → (pe.apps a).numNodes = 0

structure Inv (net : Net) : Prop where
  pes : ∀ pe ∈ net.pes, pe.Ok
  done : net.afterJump = true → net.postInitDone = true
  agree : net.postInitDone = true → Agree cfg net.pes
  fresh : net.postInitDone = false → ∀ pe ∈ net.pes, ∀ a, Fresh pe a

/-- The average iteration times of the applications that are running are known and positive. -/
def PositiveAverages (pes : List Pe) : Prop :=
  ∀ a < cfg.numApps, (∃ pe ∈ pes, isRunning pe a) → 0 < findAvgIterationTime pes (fun _ => 0) a

/-- Times are not negative, and a jump is prepared from positive averages. -/
def Admissible (net : Net) : Label → Prop
  | .feed _ _ _ iterationTime => 0 ≤ iterationTime
  | .ended _ _ => True
  | .director _ => net.afterJump = false → ∀ pes, isPredictorReady cfg net = some (pes, true) →
    PositiveAverages cfg pes

variable {cfg} {pe pe' : Pe} {pes pes' : List Pe} {a : ℕ}

theorem isRunning_iff : isRunning pe a ↔ (pe.apps a).status ≠ .completedEverywhere := by
  simp [isRunning]

variable {app : AppData}

theorem Pe.setApp_apps {P : AppData → Prop} (happ : P app)
    (hold : ∀ b, P (pe.apps b)) (b : ℕ) : P ((pe.setApp a app).apps b) := by
  by_cases hba : b = a
  · subst hba
    rwa [Pe.setApp_self]
  · rw [Pe.setApp_of_ne pe hba]
    exact hold b

/-! ### Setting up -/

/-- An application to which nothing has happened. -/
structure AppData.SetUp (app : AppData) : Prop where
  status : app.status = .running
  restart : app.pred.restartAt = 0
  nodes : app.type = .unassigned → app.numNodes = 0

/-- A PE that has been set up. -/
structure Pe.SetUp (pe : Pe) : Prop where
  times : ∀ data ∈ pe.nodes, data.prevIterationTime = 0
  apps : ∀ a, (pe.apps a).SetUp

theorem Pe.setUp_init (n : ℕ) : (Pe.init n).SetUp where
  times data h := by rw [(List.mem_replicate.1 h).2]
  apps _ := ⟨rfl, rfl, fun _ => rfl⟩

variable {node : ℕ}

theorem modelCallsInit_setUp {config : NodeConfig} (h : pe.SetUp)
    (hinit : modelCallsInit cfg pe node config = some pe') : pe'.SetUp := by
  simp only [modelCallsInit, Option.ite_none_left_eq_some, Option.bind_eq_some_iff] at hinit
  obtain ⟨-, -, data, hdata, hinit⟩ := hinit
  have htimes : ∀ d ∈ pe.nodes.set node
      { data with appId := some config.appId, lastIter := intMin }, d.prevIterationTime = 0 := by
    intro d hd
    obtain hd | rfl := List.mem_or_eq_of_mem_set hd
    · exact h.times d hd
    · exact h.times data (List.mem_of_getElem? hdata)
  have happ := h.apps config.appId
  cases config with
  | backgroundNoise b =>
    cases hinit
    exact ⟨htimes, Pe.setApp_apps ⟨happ.status, happ.restart, fun htype => nomatch htype⟩ h.apps⟩
  | app b ending =>
    dsimp only at hinit
    split_ifs at hinit <;> cases hinit <;>
      exact ⟨htimes, Pe.setApp_apps ⟨happ.status, happ.restart, fun htype => nomatch htype⟩ h.apps⟩

theorem forall_set {P : Pe → Prop} {k : ℕ} (hpes : ∀ pe ∈ pes, P pe) (hpe : P pe) :
    ∀ pe' ∈ pes.set k pe, P pe' := by
  intro pe' h
  obtain h | rfl := List.mem_or_eq_of_mem_set h
  · exact hpes pe' h
  · exact hpe

variable {configs : List (ℕ × ℕ × NodeConfig)}

theorem setup_setUp (h : ∀ pe ∈ pes, pe.SetUp)
    (hsetup : setup cfg pes configs = some pes') : ∀ pe ∈ pes', pe.SetUp := by
  induction configs generalizing pes with
  | nil =>
    cases hsetup
    exact h
  | cons c configs ih =>
    obtain ⟨k, node, config⟩ := c
    simp only [setup, Option.bind_eq_some_iff] at hsetup
    obtain ⟨pe, hpe, pe', hinit, hrest⟩ := hsetup
    exact ih (forall_set h (modelCallsInit_setUp (h pe (List.mem_of_getElem? hpe)) hinit)) hrest

theorem inv_start {sizes : List ℕ} {net : Net}
    (h : start cfg sizes configs = some net) : Inv cfg net := by
  obtain ⟨pes, hsetup, rfl⟩ := Option.map_eq_some_iff.1 h
  have hall : ∀ pe ∈ pes, pe.SetUp := by
    refine setup_setUp (fun pe hpe => ?_) hsetup
    obtain ⟨n, -, rfl⟩ := List.mem_map.1 hpe
    exact Pe.setUp_init n
  refine ⟨fun pe hpe => ⟨fun data hdata => ((hall pe hpe).times data hdata).ge, fun a => ?_⟩,
    fun h => (nomatch h), fun h => (nomatch h), fun _ pe hpe a => ?_⟩
  · have happ := (hall pe hpe).apps a
    exact ⟨fun _ hnot => absurd happ.status hnot, happ.restart.ge⟩
  · have happ := (hall pe hpe).apps a
    exact ⟨by simp [isRunning, happ.status], happ.nodes⟩

/-! ### Calls of the model -/

/-- What a call of the model leaves as it is. -/
structure Keeps (pe pe' : Pe) : Prop where
  type : ∀ a, (pe'.apps a).type = (pe.apps a).type
  ending : ∀ a, (pe'.apps a).endingIteration = (pe.apps a).endingIteration
  running : ∀ a, isRunning pe' a = isRunning pe a
  numNodes : ∀ a, (pe'.apps a).numNodes = (pe.apps a).numNodes
  pred : ∀ a, (pe'.apps a).pred = (pe.apps a).pred
  ready : pe'.readyToSkip = pe.readyToSkip

theorem Keeps.congr (happs : pe'.apps = pe.apps) (hready : pe'.readyToSkip = pe.readyToSkip) :
    Keeps pe pe' := by
  refine ⟨?_, ?_, ?_, ?_, ?_, hready⟩ <;> intro a <;> simp only [isRunning, happs]

/-- An application is written, but not what is kept. -/
theorem Keeps.setApp {pe₁ : Pe} (happs : pe₁.apps = pe.apps)
    (hready : pe₁.readyToSkip = pe.readyToSkip) (htype : app.type = (pe.apps a).type)
    (hending : app.endingIteration = (pe.apps a).endingIteration)
    (hrunning : app.status = .completedEverywhere ↔ (pe.apps a).status = .completedEverywhere)
    (hnum : app.numNodes = (pe.apps a).numNodes) (hpred : app.pred = (pe.apps a).pred) :
    Keeps pe (pe₁.setApp a app) := by
  have hcases : ∀ b, ((pe₁.setApp a app).apps b = app ∧ b = a) ∨
      (pe₁.setApp a app).apps b = pe.apps b := by
    intro b
    by_cases hba : b = a
    · subst hba
      exact .inl ⟨pe₁.setApp_self b app, rfl⟩
    · right
      rw [Pe.setApp_of_ne pe₁ hba, happs]
  refine ⟨fun b => ?_, fun b => ?_, fun b => ?_, fun b => ?_, fun b => ?_, hready⟩
  all_goals obtain ⟨heq, rfl⟩ | heq := hcases b
  all_goals simp only [isRunning, heq]
  · exact htype
  · exact hending
  · simp [hrunning]
  · exact hnum
  · exact hpred

theorem modelCallsFeed_ok {iter : ℤ} {time : ℚ} (h : pe.Ok) (htime : 0 ≤ time)
    (hfeed : modelCallsFeed cfg pe node iter time = some pe') : pe'.Ok ∧ Keeps pe pe' := by
  simp only [modelCallsFeed, Option.bind_eq_some_iff] at hfeed
  obtain ⟨⟨data, a⟩, -, hfeed⟩ := hfeed
  dsimp only at hfeed
  split_ifs at hfeed
  · cases hfeed
    exact ⟨⟨h.times, h.apps⟩, .congr rfl rfl⟩
  · cases hfeed
    exact ⟨h, .congr rfl rfl⟩
  all_goals
    cases hfeed
    have htimes : ∀ d ∈ pe.nodes.set node ⟨data.appId,
        data.accIterationTime + (time - data.prevIterationTime), time, data.accIters + 1, iter⟩,
        0 ≤ d.prevIterationTime := by
      intro d hd
      obtain hd | rfl := List.mem_or_eq_of_mem_set hd
      · exact h.times d hd
      · exact htime
  · exact ⟨⟨htimes, Pe.setApp_apps ⟨(h.apps a).ended, (h.apps a).restart⟩ h.apps⟩,
      .setApp rfl rfl rfl rfl Iff.rfl rfl rfl⟩
  · exact ⟨⟨htimes, h.apps⟩, .congr rfl rfl⟩

theorem modelCallsEnded_ok (h : pe.Ok) (htype : typeOf pe node = some .app)
    (hended : modelCallsEnded pe node = some pe') : pe'.Ok ∧ Keeps pe pe' := by
  obtain ⟨⟨data, a⟩, hof, rfl⟩ := Option.map_eq_some_iff.1 hended
  have happ : (pe.apps a).type = .app := by
    rw [typeOf, hof] at htype
    exact Option.some.inj htype
  have hok := (h.apps a).ended happ
  refine ⟨⟨h.times, Pe.setApp_apps ⟨fun _ hstatus => ?_, (h.apps a).restart⟩ h.apps⟩,
    .setApp rfl rfl rfl rfl ?_ rfl rfl⟩
  · dsimp only at hstatus ⊢
    split_ifs at hstatus with hlast
    · exact hlast.ge
    · exact (hok hstatus).trans (Nat.le_succ _)
  · dsimp only
    split_ifs with hlast
    · constructor
      · exact fun h => nomatch h
      · intro hce
        have hle := hok (by simp [hce])
        omega
    · exact Iff.rfl

/-! ### Agreement -/

theorem SameView.symm (h : SameView pe pe' a) : SameView pe' pe a :=
  ⟨h.type.symm, h.running.symm, fun hr => (h.ending (h.running ▸ hr)).symm⟩

theorem SameView.trans {pe'' : Pe} (h : SameView pe pe' a) (h' : SameView pe' pe'' a) :
    SameView pe pe'' a :=
  ⟨h.type.trans h'.type, h.running.trans h'.running,
    fun hr => (h.ending hr).trans (h'.ending (h.running ▸ hr))⟩

theorem Keeps.sameView (h : Keeps pe pe') (a : ℕ) : SameView pe pe' a :=
  ⟨(h.type a).symm, (h.running a).symm, fun _ => (h.ending a).symm⟩

theorem Agree.of_view (h : Agree cfg pes)
    (hview : ∀ pe' ∈ pes', ∃ pe ∈ pes, ∀ a < cfg.numApps, SameView pe pe' a) : Agree cfg pes' := by
  constructor
  · intro a ha pe₁ hpe₁ pe₂ hpe₂
    obtain ⟨o₁, ho₁, h₁⟩ := hview pe₁ hpe₁
    obtain ⟨o₂, ho₂, h₂⟩ := hview pe₂ hpe₂
    exact ((h₁ a ha).symm.trans (h.view a ha o₁ ho₁ o₂ ho₂)).trans (h₂ a ha)
  · intro a ha pe₁ hpe₁ hrunning
    obtain ⟨o₁, ho₁, h₁⟩ := hview pe₁ hpe₁
    rw [← (h₁ a ha).type]
    exact h.app a ha o₁ ho₁ ((h₁ a ha).running ▸ hrunning)

theorem Inv.onPe {net net' : Net} {k : ℕ} {f : Pe → Option Pe} (h : Inv cfg net)
    (hf : ∀ pe pe', pe.Ok → f pe = some pe' → pe'.Ok ∧ Keeps pe pe')
    (hnet : onPe net k f = some net') : Inv cfg net' := by
  simp only [Surrogate.onPe, Option.bind_eq_some_iff, Option.map_eq_some_iff] at hnet
  obtain ⟨pe, hpe, pe', hpe', rfl⟩ := hnet
  have hmem := List.mem_of_getElem? hpe
  obtain ⟨hok, hkeeps⟩ := hf pe pe' (h.pes pe hmem) hpe'
  refine ⟨forall_set h.pes hok, h.done, fun hdone => (h.agree hdone).of_view ?_, fun hdone => ?_⟩
  · intro pe₁ hpe₁
    obtain hpe₁ | rfl := List.mem_or_eq_of_mem_set hpe₁
    · exact ⟨pe₁, hpe₁, fun a _ => ⟨rfl, rfl, fun _ => rfl⟩⟩
    · exact ⟨pe, hmem, fun a _ => hkeeps.sameView a⟩
  · refine forall_set (h.fresh hdone) fun a => ?_
    have hfresh := h.fresh hdone pe hmem a
    refine ⟨(hkeeps.running a).trans hfresh.running, fun htype => ?_⟩
    rw [hkeeps.type] at htype
    rw [hkeeps.numNodes]
    exact hfresh.nodes htype

/-! ### The first call of the director -/

/-- The type that an application has on some PE. -/
def sharedType (pes : List Pe) (a : ℕ) : NodeType :=
  let type := allreduceMax pes fun pe => (pe.apps a).type.toInt
  if type = NodeType.unassigned.toInt then .unassigned
  else if type = NodeType.backgroundNoise.toInt then .backgroundNoise
  else .app

/-- What `post_init_share_ending_iteration` makes of an application. -/
structure Shared (pes : List Pe) (a : ℕ) (app : AppData) : Prop where
  ok : app.Ok
  type : app.type = sharedType pes a
  running : app.status ≠ .completedEverywhere ↔ sharedType pes a = .app
  ending : sharedType pes a = .app →
    app.endingIteration = allreduceMax pes fun pe => (pe.apps a).endingIteration

theorem shareEnding_shared (hok : (pe.apps a).Ok) (hfresh : Fresh pe a)
    (h : shareEnding pes pe a = some app) : Shared pes a app := by
  have hstatus := isRunning_iff.1 hfresh.running
  have hnodes := hfresh.nodes
  unfold shareEnding at h
  dsimp only at h
  by_cases hun : (allreduceMax pes fun pe => (pe.apps a).type.toInt) = NodeType.unassigned.toInt
  · have hshared : sharedType pes a = .unassigned := if_pos hun
    rw [if_pos hun, Option.ite_none_right_eq_some] at h
    obtain ⟨htype, h⟩ := h
    cases h
    exact ⟨⟨fun happ => absurd (htype.symm.trans happ) (by simp), hok.restart⟩,
      htype.trans hshared.symm, by simp [hshared], by simp [hshared]⟩
  · by_cases hbg : (allreduceMax pes fun pe => (pe.apps a).type.toInt) =
        NodeType.backgroundNoise.toInt
    · have hshared : sharedType pes a = .backgroundNoise := (if_neg hun).trans (if_pos hbg)
      rw [if_neg hun, if_pos hbg, Option.ite_none_left_eq_some] at h
      cases h.2
      exact ⟨⟨fun happ => (nomatch happ), hok.restart⟩, hshared.symm, by simp [hshared],
        by simp [hshared]⟩
    · have hshared : sharedType pes a = .app := (if_neg hun).trans (if_neg hbg)
      rw [if_neg hun, if_neg hbg] at h
      split at h
      · rename_i htype
        cases h
        exact ⟨⟨fun _ _ => (hnodes htype).le.trans (Nat.zero_le _), hok.restart⟩, hshared.symm,
          by simp [hshared], fun _ => rfl⟩
      · cases h
      · rename_i htype
        rw [Option.ite_none_right_eq_some] at h
        obtain ⟨hending, h⟩ := h
        cases h
        exact ⟨hok, htype.trans hshared.symm, by simp [hshared, hstatus], fun _ => hending⟩

/-- **After the first call of the director** the PEs agree. -/
theorem postInit_agree (hpes : ∀ pe ∈ pes, pe.Ok) (hfresh : ∀ pe ∈ pes, ∀ a, Fresh pe a)
    (h : postInitShareEndingIteration cfg pes = some pes') :
    (∀ pe ∈ pes', pe.Ok) ∧ Agree cfg pes' := by
  simp only [postInitShareEndingIteration, Option.ite_none_right_eq_some] at h
  obtain ⟨hall, h⟩ := h
  cases h
  have hshared : ∀ a < cfg.numApps, ∀ pe ∈ pes,
      Shared pes a ((shareEnding pes pe a).getD (pe.apps a)) := by
    intro a ha pe hpe
    have hsome := List.all_eq_true.1 (List.all_eq_true.1 hall pe hpe) a (List.mem_range.2 ha)
    obtain ⟨app, happ⟩ := Option.isSome_iff_exists.1 hsome
    rw [happ]
    exact shareEnding_shared ((hpes pe hpe).apps a) (hfresh pe hpe a) happ
  refine ⟨fun pe' hpe' => ?_, fun a ha pe₁ hpe₁ pe₂ hpe₂ => ?_, fun a ha pe₁ hpe₁ hrunning => ?_⟩
  · obtain ⟨pe, hpe, rfl⟩ := List.mem_map.1 hpe'
    refine ⟨(hpes pe hpe).times, fun a => ?_⟩
    by_cases ha : a < cfg.numApps
    · simp only [if_pos ha]
      exact (hshared a ha pe hpe).ok
    · simp only [if_neg ha]
      exact (hpes pe hpe).apps a
  · obtain ⟨o₁, ho₁, rfl⟩ := List.mem_map.1 hpe₁
    obtain ⟨o₂, ho₂, rfl⟩ := List.mem_map.1 hpe₂
    have h₁ := hshared a ha o₁ ho₁
    have h₂ := hshared a ha o₂ ho₂
    constructor
    · simp only [if_pos ha]
      exact h₁.type.trans h₂.type.symm
    · rw [Bool.eq_iff_iff, isRunning_iff, isRunning_iff]
      simp only [if_pos ha]
      exact h₁.running.trans h₂.running.symm
    · rw [isRunning_iff]
      simp only [if_pos ha]
      intro hrunning
      have htype := h₁.running.1 hrunning
      exact (h₁.ending htype).trans (h₂.ending htype).symm
  · obtain ⟨o₁, ho₁, rfl⟩ := List.mem_map.1 hpe₁
    rw [isRunning_iff] at hrunning
    simp only [if_pos ha] at hrunning ⊢
    have h₁ := hshared a ha o₁ ho₁
    exact h₁.type.trans (h₁.running.1 hrunning)

/-! ### The reset -/

theorem isRunning_resetWith : isRunning (resetWith pes pe) a ↔
    isRunning pe a ∧ appJustEnded pes a = false := by
  rw [isRunning_iff, isRunning_iff]
  simp only [resetWith]
  by_cases hended : appJustEnded pes a <;> simp [hended]

/-- An application is only completed everywhere if it has ended on every PE. -/
theorem resetWith_ok (hpe : pe ∈ pes) (h : pe.Ok) : (resetWith pes pe).Ok := by
  constructor
  · intro data hdata
    obtain ⟨old, hold, rfl⟩ := List.mem_map.1 hdata
    split
    · exact h.times old hold
    · rename_i a _
      dsimp only
      split_ifs
      · exact (h.apps a).restart
      · exact h.times old hold
  · intro a
    refine ⟨fun htype hstatus => ?_, (h.apps a).restart⟩
    simp only [resetWith] at htype hstatus ⊢
    by_cases hended : appJustEnded pes a
    · have hjust : (pe.apps a).status = .justCompleted :=
        of_decide_eq_true (List.all_eq_true.1 hended pe hpe)
      exact (h.apps a).ended htype (by simp [hjust])
    · rw [if_neg hended] at hstatus
      exact (h.apps a).ended htype hstatus

theorem reset_agree (h : Agree cfg pes) : Agree cfg (pes.map (resetWith pes)) := by
  constructor
  · intro a ha pe₁ hpe₁ pe₂ hpe₂
    obtain ⟨o₁, ho₁, rfl⟩ := List.mem_map.1 hpe₁
    obtain ⟨o₂, ho₂, rfl⟩ := List.mem_map.1 hpe₂
    have hview := h.view a ha o₁ ho₁ o₂ ho₂
    refine ⟨hview.type, ?_, fun hrunning => hview.ending (isRunning_resetWith.1 hrunning).1⟩
    rw [Bool.eq_iff_iff, isRunning_resetWith, isRunning_resetWith, hview.running]
  · intro a ha pe₁ hpe₁ hrunning
    obtain ⟨o₁, ho₁, rfl⟩ := List.mem_map.1 hpe₁
    exact h.app a ha o₁ ho₁ (isRunning_resetWith.1 hrunning).1

/-! ### The director -/

theorem isPredictorReady_inv {net : Net} {ready : Bool} (h : Inv cfg net)
    (hready : isPredictorReady cfg net = some (pes, ready)) :
    (∀ pe ∈ pes, pe.Ok) ∧ Agree cfg pes ∧
      (ready = true → ∀ pe ∈ pes, ∃ a < cfg.numApps, isRunning pe a) := by
  simp only [isPredictorReady, Option.bind_eq_some_iff] at hready
  obtain ⟨pes₀, hpost, hready⟩ := hready
  obtain ⟨hok, hagree⟩ : (∀ pe ∈ pes₀, pe.Ok) ∧ Agree cfg pes₀ := by
    split_ifs at hpost with hdone
    · cases hpost
      exact ⟨h.pes, h.agree hdone⟩
    · exact postInit_agree h.pes (h.fresh (by simpa using hdone)) hpost
  split_ifs at hready with hended hall hany
  · cases hready
    refine ⟨fun pe hpe => ?_, reset_agree hagree, fun h => nomatch h⟩
    obtain ⟨old, hold, rfl⟩ := List.mem_map.1 hpe
    exact resetWith_ok hold (hok old hold)
  · cases hready
    exact ⟨hok, hagree, fun h => nomatch h⟩
  · cases hready
    refine ⟨hok, hagree, fun _ pe hpe => ?_⟩
    by_contra hnone
    refine hany (List.any_eq_true.2 ⟨pe, hpe, List.all_eq_true.2 fun a ha => ?_⟩)
    by_contra hrunning
    refine hnone ⟨a, List.mem_range.1 ha, isRunning_iff.2 fun hstatus => hrunning ?_⟩
    exact decide_eq_true hstatus

end CodesSim.Surrogate
