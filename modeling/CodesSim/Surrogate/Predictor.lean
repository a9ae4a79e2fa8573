import CodesSim.Lib.Machine
import Mathlib.Data.Rat.Floor

/-!
# The iteration predictor of applications

The predictor of `app-iteration-predictor/average.c`.  Every process (PE) has some of the compute
nodes of each application.  The nodes feed it the times of their iterations; from the averages over
all PEs it predicts when the first application ends, and how many iterations each may skip until
then (`prepareFastForwardJump`).  The calls of the director (`application-surrogate.c`) are
collective: all PEs make them together, and `MPI_Allreduce` combines what they have.

* Times are rational numbers, and the C arithmetic on them is exact; `int` values are unbounded.
  What may be skipped stays an `int`: it is at most what an application has left (`itersToSkip_le`).
  Arrays over applications are functions.
* `junk` is what an array on the stack holds that has not been written.
* Warnings and what is printed are left out.
-/

namespace CodesSim.Surrogate

/-! ### Data -/

/-- `NODE_TYPE`, in this order. -/
inductive NodeType where
  | unassigned
  | backgroundNoise
  | app
  deriving DecidableEq

def NodeType.toInt : NodeType → ℤ
  | .unassigned => 0
  | .backgroundNoise => 1
  | .app => 2

/-- The configuration of a node (`app_iter_node_config`). -/
inductive NodeConfig where
  | backgroundNoise (appId : ℕ)
  | app (appId : ℕ) (appEndingIter : ℤ)

namespace NodeConfig

def appId : NodeConfig → ℕ
  | .backgroundNoise a | .app a _ => a

def type : NodeConfig → NodeType
  | .backgroundNoise _ => .backgroundNoise
  | .app _ _ => .app

end NodeConfig

/-- `INT_MIN`. -/
def intMin : ℤ := -2 ^ 31

/-- `DBL_MAX`. -/
def dblMax : ℚ := 2 ^ 1024 - 2 ^ 971

/-- What is known of a node (`node_data`); it belongs to no application at first. -/
structure NodeData where
  appId : Option ℕ := none
  accIterationTime : ℚ := 0
  prevIterationTime : ℚ := 0
  accIters : ℕ := 0
  lastIter : ℤ := intMin

/-- `APP_STATUS`. -/
inductive AppStatus where
  | running
  /-- Ended on this PE. -/
  | justCompleted
  | completedEverywhere
  deriving DecidableEq

/-- What is predicted for an application. -/
structure Pred where
  jumpAtIter : ℤ := 0
  resumeAtIter : ℤ := 0
  restartAt : ℚ := 0

/-- What a PE knows of an application (`app_data`). -/
structure AppData where
  type : NodeType := .unassigned
  /-- Nodes on this PE. -/
  numNodes : ℕ := 0
  nodesWithEnoughIters : ℕ := 0
  endingIteration : ℤ := intMin
  nodesThatHaveEnded : ℕ := 0
  status : AppStatus := .running
  pred : Pred := {}

/-- The predictor of a PE. -/
structure Pe where
  nodes : List NodeData
  apps : ℕ → AppData
  readyToSkip : Bool
  /-- `feed` has been called for background noise. -/
  shownWarning : Bool

/-- `avg_app_config`, but for the nodes of the PE. -/
structure Config where
  numApps : ℕ
  numItersToCollect : ℕ

namespace Pe

/-- `avg_app_iteration_predictor`, on a PE with `n` nodes. -/
def init (n : ℕ) : Pe := ⟨List.replicate n {}, fun _ => {}, false, false⟩

variable (pe : Pe)

/-- The nodes of an application. -/
def nodesOf (a : ℕ) : List NodeData := pe.nodes.filter fun node => node.appId = some a

/-- Write the data of an application. -/
def setApp (a : ℕ) (app : AppData) : Pe := { pe with apps := Function.update pe.apps a app }

/-- The data of the application of a node; fails for a node that belongs to none. -/
def appOf (node : ℕ) : Option (NodeData × ℕ) :=
  pe.nodes[node]?.bind fun data => data.appId.map fun a => (data, a)

end Pe

@[simp] theorem Pe.setApp_self (pe : Pe) (a : ℕ) (app : AppData) : (pe.setApp a app).apps a = app :=
  Function.update_self ..

theorem Pe.setApp_of_ne (pe : Pe) {a b : ℕ} (h : b ≠ a) (app : AppData) :
    (pe.setApp a app).apps b = pe.apps b :=
  Function.update_of_ne h ..

variable (cfg : Config)

/-! ### Calls of the model -/

/-- `model_calls_init`; `none` is an error. -/
def modelCallsInit (pe : Pe) (node : ℕ) (config : NodeConfig) : Option Pe :=
  let app := pe.apps config.appId
  if cfg.numApps ≤ config.appId then none
  else if app.type ≠ .unassigned ∧ app.type ≠ config.type then none
  else
    pe.nodes[node]?.bind fun data =>
      let pe := { pe with
        nodes := pe.nodes.set node { data with appId := some config.appId, lastIter := intMin } }
      let app := { app with numNodes := app.numNodes + 1, type := config.type }
      match config with
      | .backgroundNoise a => some (pe.setApp a app)
      | .app a ending =>
        if app.endingIteration = intMin then
          some (pe.setApp a { app with endingIteration := ending })
        else if app.endingIteration = ending then some (pe.setApp a app)
        else none

/-- `model_calls_feed`: a node has reached the end of an iteration; `none` is a failed assertion. -/
def modelCallsFeed (pe : Pe) (node : ℕ) (iter : ℤ) (iterationTime : ℚ) : Option Pe :=
  (pe.appOf node).bind fun (data, a) =>
    let app := pe.apps a
    -- the warning is shown once, and only that call returns here
    if ¬ pe.shownWarning ∧ app.type = .backgroundNoise then some { pe with shownWarning := true }
    else if app.type ≠ .app then none
    else if iter ≤ data.lastIter then some pe
    else
      let pe := { pe with nodes := pe.nodes.set node { data with
        accIterationTime := data.accIterationTime + (iterationTime - data.prevIterationTime)
        prevIterationTime := iterationTime
        accIters := data.accIters + 1
        lastIter := iter } }
      if data.accIters + 1 = cfg.numItersToCollect then
        some (pe.setApp a { app with nodesWithEnoughIters := app.nodesWithEnoughIters + 1 })
      else some pe

/-- `model_calls_ended`: a node has ended. -/
def modelCallsEnded (pe : Pe) (node : ℕ) : Option Pe :=
  (pe.appOf node).map fun (_, a) =>
    let app := pe.apps a
    let ended := app.nodesThatHaveEnded + 1
    pe.setApp a { app with
      nodesThatHaveEnded := ended
      status := if ended = app.numNodes then .justCompleted else app.status }

/-- `model_calls_have_we_hit_switch`. -/
def modelCallsHaveWeHitSwitch (pe : Pe) (node : ℕ) (iterationId : ℤ) : Option Bool :=
  (pe.appOf node).map fun (_, a) =>
    if ¬ pe.readyToSkip then false
    else
      match (pe.apps a).type with
      | .backgroundNoise => true
      | .app => iterationId = (pe.apps a).pred.jumpAtIter
      | .unassigned => false

/-! ### Collective operations -/

/-- `mpi_allreduce_int_max`. -/
def allreduceMax (pes : List Pe) (f : Pe → ℤ) : ℤ := ((pes.map f).max?).getD intMin

/-- `mpi_allreduce_int_sum`, `mpi_allreduce_double_sum`. -/
def allreduceSum {α : Type*} [Add α] [Zero α] (pes : List Pe) (f : Pe → α) : α := (pes.map f).sum

/-- `mpi_allreduce_bool_and`. -/
def allreduceAnd (pes : List Pe) (f : Pe → Bool) : Bool := pes.all f

/-- `find_max_iter_per_app`. -/
def findMaxIterPerApp (pes : List Pe) (a : ℕ) : ℤ :=
  allreduceMax pes fun pe => ((pe.nodesOf a).map NodeData.lastIter).foldl max intMin

/-- `post_init_share_ending_iteration`, for one application on one PE. -/
def shareEnding (pes : List Pe) (pe : Pe) (a : ℕ) : Option AppData :=
  let app := pe.apps a
  let ending := allreduceMax pes fun pe => (pe.apps a).endingIteration
  let type := allreduceMax pes fun pe => (pe.apps a).type.toInt
  if type = NodeType.unassigned.toInt then
    if app.type = .unassigned then some { app with status := .completedEverywhere } else none
  else if type = NodeType.backgroundNoise.toInt then
    if app.type = .app then none
    else some { app with status := .completedEverywhere, type := .backgroundNoise }
  else
    match app.type with
    | .unassigned =>
      some { app with status := .justCompleted, endingIteration := ending, type := .app }
    | .backgroundNoise => none
    | .app => if app.endingIteration = ending then some app else none

/-- `post_init_share_ending_iteration`; `none` is an error. -/
def postInitShareEndingIteration (pes : List Pe) : Option (List Pe) :=
  if pes.all fun pe => (List.range cfg.numApps).all fun a => (shareEnding pes pe a).isSome then
    some (pes.map fun pe => { pe with apps := fun a =>
      if a < cfg.numApps then (shareEnding pes pe a).getD (pe.apps a) else pe.apps a })
  else none

/-- `has_any_app_ended`: the applications that have ended on all PEs just now. -/
def appJustEnded (pes : List Pe) (a : ℕ) : Bool :=
  allreduceAnd pes fun pe => (pe.apps a).status = .justCompleted

/-- `reset_with`. -/
def resetWith (pes : List Pe) (pe : Pe) : Pe where
  nodes := pe.nodes.map fun node =>
    match node.appId with
    | none => node
    | some a =>
      let pred := (pe.apps a).pred
      if node.lastIter < pred.resumeAtIter then
        { node with
          accIters := 0
          accIterationTime := 0
          lastIter := findMaxIterPerApp pes a
          prevIterationTime := pred.restartAt }
      else { node with accIters := 0, accIterationTime := 0 }
  apps a := { pe.apps a with
    nodesWithEnoughIters := 0
    status := if appJustEnded pes a then .completedEverywhere else (pe.apps a).status }
  readyToSkip := false
  shownWarning := pe.shownWarning

/-- `all_apps_ended`. -/
def allAppsEnded (pe : Pe) : Bool :=
  (List.range cfg.numApps).all fun a => (pe.apps a).status = .completedEverywhere

/-- `has_everyone_accumulated_enough`. -/
def hasEveryoneAccumulatedEnough (pe : Pe) : Bool :=
  (List.range cfg.numApps).all fun a =>
    let app := pe.apps a
    ¬ (0 < app.numNodes ∧ app.status ≠ .completedEverywhere) ∨
      app.nodesWithEnoughIters = app.numNodes

/-! ### The jump -/

section

variable (pes : List Pe) (junk : ℕ → ℚ) (a : ℕ)

/-- The iterations of an application that have been recorded. -/
def accIters : ℕ := allreduceSum pes fun pe => ((pe.nodesOf a).map NodeData.accIters).sum

/-- `find_avg_iteration_time`. -/
def findAvgIterationTime : ℚ :=
  if accIters pes a ≠ 0 then
    allreduceSum pes (fun pe => ((pe.nodesOf a).map NodeData.accIterationTime).sum) /
      accIters pes a
  else junk a

/-- `find_avg_time_for_max_iter`. -/
def findAvgTimeForMaxIter : ℚ :=
  let last (pe : Pe) := (pe.nodesOf a).filter fun node => node.lastIter = findMaxIterPerApp pes a
  let time := allreduceSum pes fun pe => ((last pe).map NodeData.prevIterationTime).sum
  let num := allreduceSum pes fun pe => (last pe).length
  if 0 < num then time / num else time

end

/-- `lround`: halves are rounded away from zero. -/
def lround (x : ℚ) : ℤ := if 0 ≤ x then ⌊x + 1 / 2⌋ else ⌈x - 1 / 2⌉

/-- A loop over the applications for the best value among those that are running. -/
def pick (better : ℚ → ℚ → Prop) [DecidableRel better] (start : ℚ) (n : ℕ) (isRunning : ℕ → Bool)
    (value : ℕ → ℚ) : ℚ :=
  (List.range n).foldl (fun best a => if isRunning a ∧ better (value a) best then value a else best)
    start

/-- `fast_forward_values`; the director switches or only waits until `restartingAt`. -/
structure FastForwardValues where
  isSwitching : Bool
  restartingAt : ℚ

section

variable (pes : List Pe) (junk : ℕ → ℚ) (pe : Pe)

/-- `get_running_apps`. -/
def isRunning (a : ℕ) : Bool := (pe.apps a).status ≠ .completedEverywhere

/-- When an application is predicted to end. -/
def appsEndTime (a : ℕ) : ℚ :=
  findAvgTimeForMaxIter pes a +
    ((pe.apps a).endingIteration - findMaxIterPerApp pes a) * findAvgIterationTime pes junk a

/-- `compute_earliest_end_time`. -/
def computeEarliestEndTime : ℚ :=
  pick (· < ·) dblMax cfg.numApps (isRunning pe) (appsEndTime pes junk pe)

/-- `iters_to_skip` of `compute_restart_params`. -/
def itersToSkip (a : ℕ) : ℤ :=
  lround ((computeEarliestEndTime cfg pes junk pe - findAvgTimeForMaxIter pes a) /
    findAvgIterationTime pes junk a)

/-- `apps_restart_at_time` of `compute_restart_params`. -/
def appsRestartAtTime (a : ℕ) : ℚ :=
  findAvgTimeForMaxIter pes a + itersToSkip cfg pes junk pe a * findAvgIterationTime pes junk a

/-- What `compute_restart_params` returns: every running application skips more than one
iteration. -/
def worthSwitching : Bool :=
  (List.range cfg.numApps).all fun a => ¬ isRunning pe a ∨ 1 < itersToSkip cfg pes junk pe a

/-- `find_latest_restart_time`. -/
def findLatestRestartTime : ℚ :=
  pick (· > ·) 0 cfg.numApps (isRunning pe) (appsRestartAtTime cfg pes junk pe)

/-- `find_earliest_restart_time`. -/
def findEarliestRestartTime : ℚ :=
  pick (· < ·) dblMax cfg.numApps (isRunning pe) (appsRestartAtTime cfg pes junk pe)

/-- `set_app_prediction_data`, for one application. -/
def setAppPredictionData (a : ℕ) : AppData :=
  let app := pe.apps a
  match app.type with
  | .unassigned => app
  | .backgroundNoise =>
    { app with pred := { app.pred with restartAt := findEarliestRestartTime cfg pes junk pe } }
  | .app =>
    if isRunning pe a then
      { app with pred := {
        jumpAtIter := findMaxIterPerApp pes a + 1
        resumeAtIter := findMaxIterPerApp pes a + itersToSkip cfg pes junk pe a
        restartAt := appsRestartAtTime cfg pes junk pe a } }
    else app

/-- `director_calls_prepare_fast_forward_jump`. -/
def prepareFastForwardJump : Pe × FastForwardValues :=
  let restartingAt := findLatestRestartTime cfg pes junk pe
  if worthSwitching cfg pes junk pe then
    ({ pe with
      apps := fun a => if a < cfg.numApps then setAppPredictionData cfg pes junk pe a else pe.apps a
      readyToSkip := true }, ⟨true, restartingAt⟩)
  else (pe, ⟨false, restartingAt⟩)

end

/-! ### Runs -/

/-- All PEs, with `post_init_done` of the predictor and whether the director waits for the end of a
jump. -/
structure Net where
  pes : List Pe
  postInitDone : Bool
  afterJump : Bool

/-- The nodes are set up before the first event: each has a PE, a number there and a
configuration. -/
def setup : List Pe → List (ℕ × ℕ × NodeConfig) → Option (List Pe)
  | pes, [] => some pes
  | pes, (k, node, config) :: rest =>
    pes[k]?.bind fun pe => (modelCallsInit cfg pe node config).bind fun pe' =>
      setup (pes.set k pe') rest

/-- PEs with some numbers of nodes, and the nodes set up. -/
def start (sizes : List ℕ) (configs : List (ℕ × ℕ × NodeConfig)) : Option Net :=
  (setup cfg (sizes.map Pe.init) configs).map fun pes => ⟨pes, false, false⟩

/-- `director_calls_is_predictor_ready`, on all PEs; `none` is an error, or a collective operation
that some PEs do not take part in. -/
def isPredictorReady (net : Net) : Option (List Pe × Bool) :=
  (if net.postInitDone then some net.pes else postInitShareEndingIteration cfg net.pes).bind
    fun pes =>
      if (List.range cfg.numApps).any (appJustEnded pes) then some (pes.map (resetWith pes), false)
      else if pes.all (allAppsEnded cfg) then some (pes, false)
      else if pes.any (allAppsEnded cfg) then none
      else some (pes, allreduceAnd pes (hasEveryoneAccumulatedEnough cfg))

/-- `prepareFastForwardJump` on all PEs. -/
def prepareAll (pes : List Pe) (junk : ℕ → ℕ → ℚ) : List (Pe × FastForwardValues) :=
  pes.mapIdx fun k pe => prepareFastForwardJump cfg pes (junk k) pe

/-- What happens: a node of a PE has reached the end of an iteration or has ended, or the director
is called. -/
inductive Label where
  | feed (k node : ℕ) (iter : ℤ) (iterationTime : ℚ)
  | ended (k node : ℕ)
  | director (junk : ℕ → ℕ → ℚ)

/-- A call of the model on PE `k`. -/
def onPe (net : Net) (k : ℕ) (f : Pe → Option Pe) : Option Net :=
  net.pes[k]?.bind fun pe => (f pe).map fun pe' => { net with pes := net.pes.set k pe' }

/-- The type of the application of a node. -/
def typeOf (pe : Pe) (node : ℕ) : Option NodeType :=
  (pe.appOf node).map fun (_, a) => (pe.apps a).type

/-- `application_director`: before a jump it asks whether the predictor is ready and prepares a
jump, after a jump it resets the predictor.  Only nodes that replay a trace tell the predictor that
they have ended. -/
def step (net : Net) : Label → Option Net
  | .feed k node iter iterationTime =>
    onPe net k fun pe => modelCallsFeed cfg pe node iter iterationTime
  | .ended k node =>
    onPe net k fun pe =>
      if typeOf pe node = some .app then modelCallsEnded pe node else none
  | .director junk =>
    if net.afterJump then
      some { net with pes := net.pes.map (resetWith net.pes), afterJump := false }
    else
      (isPredictorReady cfg net).map fun (pes, ready) =>
        if ready then ⟨(prepareAll cfg pes junk).map Prod.fst, true, true⟩ else ⟨pes, true, false⟩

/-- The predictor with the director. -/
def machine : Machine Net Label := ⟨step cfg⟩

end CodesSim.Surrogate
