import CodesSim.Config.Registry

/-!
# The compiler

The second half of `config_compiler.cxx`: a merged `FriendlyConfig` becomes sections, and these a
configuration tree (`config_emitter.cxx`).

* `fabricParams` are the parameters of a fabric under the names they get in `PARAMS`, in the order
  in which `compile_fabric` appends them.
* `compileConfig` compiles what was merged, and `compile` documents.
-/

namespace CodesSim.Config

/-! ### Parameters -/

/-- `is_derived_param`. -/
def isDerivedParam (key : CStr) : Bool := key == "modelnet_order"

/-! The messages of `resolve_param_value`. -/

def kindMismatch (key raw : CStr) (takes given : Quantity) : List CStr :=
  ["parameter ", quoted key, " takes a ", takes.name, " value, but ", quoted raw, " is a ",
    given.name, " value"]

def negativeValue (key raw : CStr) : List CStr :=
  ["parameter ", quoted key, " value ", quoted raw, " must not be negative"]

def unrecognizedUnit (key raw : CStr) : List CStr :=
  ["parameter ", quoted key, " value ", quoted raw,
    " has an unrecognized unit; use ns/us/ms/s (time), B/KiB/MiB/GiB ",
    "(size), or a bit/byte rate like Gbps/GiBps (bandwidth), or write a ",
    "bare number in the model's internal unit"]

def notUnitAware (key raw : CStr) : List CStr :=
  ["parameter ", quoted key,
    " is a pass-through model knob that is not unit-aware, so the unit-bearing value ",
    quoted raw, " would be read as its bare number by the model; drop the unit ",
    "and write the value in the model's internal unit, or use a recognized ",
    "dimensioned parameter"]

section Compile

variable (lib : Library)

/-- `resolve_param_value`. -/
def resolveParamValue (units : List ParamUnit) (key raw : CStr) : Except ConfigError CStr :=
  match findParamUnit units key with
  | some pu =>
    match lib.classifyValue raw with
    | .plain => .ok raw
    | .bareNumber _ => .ok raw
    | .withUnit kind canonical =>
      if kind ≠ pu.kind then
        reject (kindMismatch key raw pu.kind kind)
      else if canonical < 0 then
        reject (negativeValue key raw)
      else .ok (lib.formatNumber (canonical / pu.internalScale))
    | .unknownSuffix =>
      reject (unrecognizedUnit key raw)
  | none =>
    match lib.classifyValue raw with
    | .withUnit _ _ =>
      reject (notUnitAware key raw)
    | _ => .ok raw

/-- `add_user_param`. -/
def addUserParam (units : List ParamUnit) (params : CompiledSection) (kv : CStr × List CStr) :
    Except ConfigError CompiledSection :=
  if isDerivedParam kv.1 = true then
    reject [quoted kv.1, " is derived by the compiler from the topology and cannot be set ",
      "as a model parameter; remove it (the compiler emits it for you)"]
  else do
    let resolved ← kv.2.mapM (resolveParamValue lib units kv.1)
    return params.addKey kv.1 resolved

/-- A scalar parameter. -/
def scalarParam (kv : CStr × CStr) : CStr × List CStr := (kv.1, [kv.2])

/-- `routing.algorithm` is the parameter `routing`. -/
def routingParam (kv : CStr × CStr) : CStr × List CStr :=
  (if kv.1 = "algorithm" then "routing" else kv.1, [kv.2])

/-- `connections.intra` and `connections.inter` are named as the models read them. -/
def connectionParam (kv : CStr × CStr) : CStr × List CStr :=
  (if kv.1 = "intra" then "intra-group-connections"
    else if kv.1 = "inter" then "inter-group-connections"
    else kv.1, [kv.2])

/-- The parameters of a link class. -/
def linkParams (cls : LinkClass) : List (CStr × List CStr) :=
  cls.params.map fun kv => (cls.name ++ '_' :: kv.1, [kv.2])

/-- The parameters of a fabric, in order. -/
def fabricParams (fab : Fabric) : List (CStr × List CStr) :=
  fab.shape.map scalarParam ++ fab.links.flatMap linkParams ++ fab.routing.map routingParam ++
    fab.connections.map connectionParam ++ fab.extra.map scalarParam ++ fab.extraLists

/-! ### Topologies -/

/-- What is compiled of a topology: `LPGROUPS`, `PARAMS`, and the number of workload slots. -/
structure CompiledTopology where
  lpgroups : CompiledSection
  params : CompiledSection
  totalSlots : ℤ

/-- `compile_fabric`. -/
def compileFabric (cfg : FriendlyConfig) (fab : Fabric) : Except ConfigError CompiledTopology :=
  match findFabricModel fab.model with
  | none => reject ["unknown fabric model ", quoted fab.model]
  | some model =>
    match cfg.findComponent fab.hostsComponent with
    | none =>
      reject ["hosts.component ", quoted fab.hostsComponent,
        " is not defined under components:"]
    | some host =>
      if host.model = [] then
        reject ["hosts.component ", quoted fab.hostsComponent,
          " has an empty \"model:\"; a component needs a model naming its workload LP type"]
      else if host.network ≠ [] then
        reject ["hosts.component ", quoted fab.hostsComponent,
          " sets \"network:\", which is only meaningful for a flat-topology component; ",
          "a parametric fabric defines the network itself"]
      else do
        let lay ← model.derive fab.shape
        let totalSlots := wrapLong (lay.repetitions * lay.terminalsPerRep)
        if lay.repetitions ≤ 0 ∨ lay.terminalsPerRep ≤ 0 ∨ lay.routersPerRep < 0 then
          reject ["fabric model ", quoted fab.model,
            " derived a degenerate layout (repetitions=", intStr lay.repetitions,
            ", terminals_per_rep=", intStr lay.terminalsPerRep,
            ", routers_per_rep=", intStr lay.routersPerRep,
            "); check the shape values"]
        else
          let grp := (((CompiledSection.mk "MODELNET_GRP" [] []).addKey
            "repetitions" [intStr lay.repetitions]).addKey
            host.model [intStr lay.terminalsPerRep]).addKey
            model.terminalLp [intStr lay.terminalsPerRep]
          let grp := match model.routerLp with
            | some routerLp => grp.addKey routerLp [intStr lay.routersPerRep]
            | none => grp
          let params := (CompiledSection.mk "PARAMS" [] []).addKey "modelnet_order"
            (model.termMethod :: model.routerMethod.toList)
          let params ← (fabricParams fab ++ host.params.map scalarParam).foldlM
            (addUserParam lib model.units) params
          return ⟨(CompiledSection.mk "LPGROUPS" [] []).addSubsection grp, params, totalSlots⟩

/-- `compile_flat`. -/
def compileFlat (cfg : FriendlyConfig) (flatComponent : CStr) (nodeCount : ℤ) :
    Except ConfigError CompiledTopology :=
  match cfg.findComponent flatComponent with
  | none =>
    reject ["topology.component ", quoted flatComponent,
      " is not defined under components:"]
  | some comp =>
    if comp.model = [] then
      reject ["topology.component ", quoted flatComponent,
        " has an empty \"model:\"; a component needs a model naming its workload LP type"]
    else if comp.network = [] then
      reject ["component ", quoted flatComponent,
        " needs a network: field naming its NIC model"]
    else
      match findNetworkModel comp.network with
      | none => reject ["unknown network model ", quoted comp.network]
      | some net => do
        let grp := (((CompiledSection.mk "MODELNET_GRP" [] []).addKey
          "repetitions" [intStr nodeCount]).addKey
          comp.model ["1"]).addKey net.nicLp ["1"]
        let params := (CompiledSection.mk "PARAMS" [] []).addKey "modelnet_order"
          [net.method]
        let params ← (comp.params.map scalarParam).foldlM (addUserParam lib net.units) params
        return ⟨(CompiledSection.mk "LPGROUPS" [] []).addSubsection grp, params, nodeCount⟩

/-- The topology of a configuration, of any format. -/
def compileTopology (cfg : FriendlyConfig) (topology : Topology) :
    Except ConfigError CompiledTopology :=
  match topology with
  | .parametric fab => compileFabric lib cfg fab
  | .flat flatComponent nodeCount => compileFlat lib cfg flatComponent nodeCount
  | .explicitGroups lpgroups params =>
    -- such a topology has no component that could run a workload
    if (cfg.components.any fun c => c.workload.isSome) = true ∨ cfg.jobs.isSome = true then
      reject ["workload:/jobs: are not supported with an explicit-groups topology; lay ",
        "out the workload LPs in the groups directly"]
    else .ok ⟨lpgroups, params, 0⟩

/-- A setting of `apply_simulation`. -/
def applySetting (params : CompiledSection) (kv : CStr × CStr) :
    Except ConfigError CompiledSection :=
  if (params.keys.any fun existing => existing.name == kv.1) = true then
    reject [quoted kv.1, " is set both in the simulation: block and as a model parameter; ",
      "set it in only one place"]
  else .ok (params.addKey kv.1 [kv.2])

/-- `apply_simulation`, on the section `PARAMS` that every topology has. -/
def applySimulation (simulation : KvList) (params : CompiledSection) :
    Except ConfigError CompiledSection :=
  simulation.foldlM applySetting params

/-! ### Workloads -/

/-- A setting that may be missing. -/
def optionalKey (name : CStr) : Option CStr → List CompiledKey
  | none => []
  | some value => [⟨name, [value]⟩]

/-- `add_workload_keys`. -/
def workloadKeys (wl : WorkloadBlock) : List CompiledKey :=
  ⟨"type", [wl.type]⟩ :: optionalKey "traffic" wl.traffic ++
    optionalKey "num_messages" wl.numMessages ++
    optionalKey "payload_size" wl.payloadSize ++
    optionalKey "arrival_time" wl.arrivalTime

/-- `emit_workload_section`. -/
def workloadSection (wl : WorkloadBlock) : CompiledSection :=
  .mk "WORKLOAD" (workloadKeys wl) []

/-- The inline workload; it belongs to the compute component. -/
def inlineWorkload (hostKey : CStr) :
    List Component → Option WorkloadBlock → Except ConfigError (Option WorkloadBlock)
  | [], wl => .ok wl
  | c :: cs, wl =>
    match c.workload with
    | none => inlineWorkload hostKey cs wl
    | some own =>
      if c.key ≠ hostKey then
        reject ["component ", quoted c.key,
          " carries a workload: but is not the topology's compute node; put the workload on ",
          quoted hostKey, " (the component the topology runs) or use a jobs: block"]
      else inlineWorkload hostKey cs (some own)

/-- The nodes of a job are booked. -/
def bookNodes (id : CStr) (totalSlots : ℤ) :
    List ℤ → List ℤ → Except ConfigError (List ℤ)
  | [], booked => .ok booked
  | idx :: nodes, booked =>
    if totalSlots ≤ idx then
      reject ["job ", quoted id, " places a rank on node ", intStr idx,
        ", but the topology has only ", intStr totalSlots, " node slots (0..",
        intStr (totalSlots - 1), ")"]
    else if idx ∈ booked then
      reject ["job ", quoted id, " double-books node ", intStr idx,
        " (already assigned to another job)"]
    else bookNodes id totalSlots nodes (idx :: booked)

/-- The nodes of a job, if the contiguous ones start at `cursor`. -/
def jobNodes (cursor : ℤ) (j : Job) : List ℤ :=
  if j.contiguous = true then (List.range j.ranks.toNat).map fun r : ℕ => cursor + r else j.nodes

/-- Each job gets its nodes. -/
def placeJobs (totalSlots : ℤ) :
    List Job → ℤ → List ℤ → Except ConfigError (List (Job × List ℤ))
  | [], _, _ => .ok []
  | j :: jobs, cursor, booked => do
    let nodes := jobNodes cursor j
    let booked ← bookNodes j.id totalSlots nodes booked
    let rest ← placeJobs totalSlots jobs (if j.contiguous = true then cursor + j.ranks else cursor)
      booked
    return (j, nodes) :: rest

/-- A job of the `JOBS` section. -/
def jobSection (placed : Job × List ℤ) : CompiledSection :=
  .mk placed.1.id (workloadKeys placed.1.wl ++
    [⟨"ranks", [intStr placed.1.ranks]⟩, ⟨"nodes", placed.2.map intStr⟩]) []

/-- The `JOBS` section. -/
def jobsSection (placed : List (Job × List ℤ)) : CompiledSection :=
  .mk "JOBS" [⟨"num_jobs", [intStr placed.length]⟩] (placed.map jobSection)

/-- The workload of a single job on all slots, which is written as an inline one. -/
def singleJob (totalSlots : ℤ) : List Job → Option WorkloadBlock
  | [j] => if j.contiguous = true ∧ j.ranks = totalSlots then some j.wl else none
  | _ => none

/-- `compile_workload_jobs`: the section it appends, if any. -/
def compileWorkloadJobs (cfg : FriendlyConfig) (totalSlots : ℤ) (hostKey : CStr) :
    Except ConfigError (List CompiledSection) := do
  let inlineWl ← inlineWorkload hostKey cfg.components none
  match inlineWl, cfg.jobs with
  | some _, some _ =>
    reject ["a component sets an inline workload: and the config also has a jobs: block; ",
      "use one form or the other, not both"]
  | some wl, none => return [workloadSection wl]
  | none, none => return []
  | none, some jobs =>
    -- the vector of slots cannot be made with a negative size
    if totalSlots < 0 then reject ["(internal)"]
    else
      let placed ← placeJobs totalSlots jobs 0 []
      let totalRanks := (jobs.map Job.ranks).sum
      if totalRanks > totalSlots then
        reject ["jobs request ", intStr totalRanks,
          " ranks but the topology has only ", intStr totalSlots, " node slots"]
      else
        match singleJob totalSlots jobs with
        | some wl => return [workloadSection wl]
        | none => return [jobsSection placed]

/-- The component the topology runs. -/
def Topology.hostKey : Topology → CStr
  | parametric fab => fab.hostsComponent
  | flat flatComponent _ => flatComponent
  | explicitGroups _ _ => []

/-- The workload of a configuration, unless its topology is an explicit one. -/
def compileWorkload (cfg : FriendlyConfig) (topology : Topology) (totalSlots : ℤ) :
    Except ConfigError (List CompiledSection) :=
  match topology with
  | .explicitGroups _ _ => .ok []
  | topology => compileWorkloadJobs cfg totalSlots topology.hostKey

/-- What `compile` makes of the merged documents: the sections, in order. -/
def compileConfig (cfg : FriendlyConfig) : Except ConfigError (List CompiledSection) :=
  match cfg.topology with
  | none => reject ["missing required \"topology\" block"]
  | some topology => do
    let top ← compileTopology lib cfg topology
    let params ← applySimulation cfg.simulation top.params
    let workload ← compileWorkload cfg topology top.totalSlots
    return top.lpgroups :: params :: workload ++ cfg.passthrough

/-- `compile`. -/
def compile (mainDoc : CStr) (baseDocs : List CStr) :
    Except ConfigError (List CompiledSection) := do
  let cfg ← mergeDocuments lib mainDoc baseDocs
  compileConfig lib cfg

end Compile

/-! ### The tree -/

/-- `emit_keys`. -/
def emitKey (k : CompiledKey) : Entry := .key (cstr k.name) (k.values.map cstr)

mutual

/-- `emit_section`. -/
def emitSection : CompiledSection → Entry
  | .mk name keys subsections =>
    .subsection (cstr name) (keys.map emitKey ++ emitSections subsections)

/-- `emit`. -/
def emitSections : List CompiledSection → List Entry
  | [] => []
  | s :: sections => emitSection s :: emitSections sections

end

end CodesSim.Config
