import CodesSim.Config.Merged

/-!
# Where settings go

The settings of a merged configuration with the names they have in the tree, and that these are what
is compiled.

* `userParams` and `paramKeys` are the parameters and all the keys in `PARAMS`, `groupKeys` those of
  the group, and `written` is the workload with the form it is written in.
* `compileTopology_targets` and `compileWorkload_written` say that nothing else is compiled, and
  `withNodes_disjoint` that no node is given to two jobs.
-/

namespace CodesSim.Config

open Outcome

/-! ### Parameters -/

/-- The parameters of the component of a key. -/
def FriendlyConfig.componentParams (cfg : FriendlyConfig) (key : CStr) : KvList :=
  match cfg.findComponent key with
  | none => []
  | some c => c.params

/-- The parameters that a topology and its component set. -/
def userParams (cfg : FriendlyConfig) : Topology → List (CStr × List CStr)
  | .parametric fab => fabricParams fab ++ (cfg.componentParams fab.hostsComponent).map scalarParam
  | .flat flatComponent _ => (cfg.componentParams flatComponent).map scalarParam
  | .explicitGroups _ _ => []

/-- The units of the model of a topology. -/
def paramUnits (cfg : FriendlyConfig) : Topology → List ParamUnit
  | .parametric fab =>
    match findFabricModel fab.model with
    | none => []
    | some model => model.units
  | .flat flatComponent _ =>
    match (cfg.findComponent flatComponent).bind fun c => findNetworkModel c.network with
    | none => []
    | some net => net.units
  | .explicitGroups _ _ => []

/-- The names of the keys in `PARAMS`, up to those of `simulation:`. -/
def paramKeys (cfg : FriendlyConfig) : Topology → List CStr
  | .explicitGroups _ params => params.keys.map CompiledKey.name
  | .parametric fab => "modelnet_order" :: (userParams cfg (.parametric fab)).map Prod.fst
  | .flat flatComponent nodeCount =>
    "modelnet_order" :: (userParams cfg (.flat flatComponent nodeCount)).map Prod.fst

/-- A section `PARAMS` that is copied as it is. -/
def copiedParams : Topology → List CompiledSection
  | .explicitGroups _ params => [params]
  | .parametric _ => []
  | .flat _ _ => []

/-! ### Groups -/

/-- The names of the keys of the one group that is compiled. -/
def groupKeys (cfg : FriendlyConfig) : Topology → List CStr
  | .parametric fab =>
    match cfg.findComponent fab.hostsComponent, findFabricModel fab.model with
    | some host, some model =>
      "repetitions" :: host.model :: model.terminalLp :: model.routerLp.toList
    | _, _ => []
  | .flat flatComponent _ =>
    match cfg.findComponent flatComponent with
    | none => []
    | some comp =>
      "repetitions" :: comp.model ::
        ((findNetworkModel comp.network).map NetworkModel.nicLp).toList
  | .explicitGroups _ _ => []

/-- The groups have no two keys of the same name. -/
def UniqueGroups (cfg : FriendlyConfig) : Topology → Prop
  | .explicitGroups lpgroups _ => UniqueKeys lpgroups
  | .parametric fab => ((groupKeys cfg (.parametric fab)).map cstr).Nodup
  | .flat flatComponent nodeCount =>
    ((groupKeys cfg (.flat flatComponent nodeCount)).map cstr).Nodup

/-- The slots a workload may be placed on. -/
def nodeSlots : Topology → ℤ
  | .parametric fab =>
    match findFabricModel fab.model with
    | none => 0
    | some model =>
      match model.derive fab.shape with
      | .error _ => 0
      | .ok lay => wrapLong (lay.repetitions * lay.terminalsPerRep)
  | .flat _ nodeCount => nodeCount
  | .explicitGroups _ _ => 0

/-! ### Workloads -/

/-- The settings of a workload. -/
def WorkloadBlock.settings (wl : WorkloadBlock) : List CompiledKey :=
  [("type", some wl.type), ("traffic", wl.traffic),
    ("num_messages", wl.numMessages), ("payload_size", wl.payloadSize),
    ("arrival_time", wl.arrivalTime)].filterMap
    fun s => s.2.map fun value => ⟨s.1, [value]⟩

/-- The workload of a configuration, by the form it is written in. -/
inductive Written where
  | nothing
  | single (wl : WorkloadBlock)
  | jobs (jobs : List Job)

/-- The workload: that of a component or the jobs, and a single job on all slots like the former. -/
def written (cfg : FriendlyConfig) : Topology → Written
  | .explicitGroups _ _ => .nothing
  | topology =>
    match (cfg.components.filterMap Component.workload).getLast?, cfg.jobs with
    | some wl, _ => .single wl
    | none, none => .nothing
    | none, some jobs =>
      match singleJob (nodeSlots topology) jobs with
      | some wl => .single wl
      | none => .jobs jobs

/-- The jobs with their nodes, if the contiguous ones start at `cursor`. -/
def withNodes : ℤ → List Job → List (Job × List ℤ)
  | _, [] => []
  | cursor, j :: jobs =>
    (j, jobNodes cursor j) :: withNodes (if j.contiguous = true then cursor + j.ranks else cursor)
      jobs

namespace Written

/-- The name of the section a workload is written in. -/
def names : Written → List CStr
  | nothing => []
  | single _ => ["WORKLOAD"]
  | jobs _ => ["JOBS"]

/-- The settings of a workload and of its jobs, with the sections they are in. -/
def settings : Written → List (List CStr × CompiledKey)
  | nothing => []
  | single wl => wl.settings.map fun k => (["WORKLOAD"], k)
  | jobs js => (withNodes 0 js).flatMap fun placed =>
    (placed.1.wl.settings ++ [⟨"ranks", [intStr placed.1.ranks]⟩,
      ⟨"nodes", placed.2.map intStr⟩]).map fun k => (["JOBS", placed.1.id], k)

/-- The section of a workload. -/
def sections : Written → List CompiledSection
  | nothing => []
  | single wl => [workloadSection wl]
  | jobs js => [jobsSection (withNodes 0 js)]

theorem names_eq (w : Written) : w.names = w.sections.map CompiledSection.name := by
  cases w with
  | nothing => rfl
  | single wl => rfl
  | jobs js => rfl

end Written

theorem workloadKeys_eq (wl : WorkloadBlock) : workloadKeys wl = wl.settings := by
  obtain ⟨type, traffic, numMessages, payloadSize, arrivalTime⟩ := wl
  cases traffic <;> cases numMessages <;> cases payloadSize <;> cases arrivalTime <;> rfl

theorem jobSection_unique (placed : Job × List ℤ) : UniqueKeys (jobSection placed) := by
  obtain ⟨⟨id, ⟨type, traffic, numMessages, payloadSize, arrivalTime⟩, ranks, contiguous, nodes⟩,
    slots⟩ := placed
  refine .mk ?_ fun s hs => absurd hs List.not_mem_nil
  cases traffic <;> cases numMessages <;> cases payloadSize <;> cases arrivalTime <;>
    exact of_decide_eq_true rfl

theorem workloadSection_unique (wl : WorkloadBlock) : UniqueKeys (workloadSection wl) := by
  -- a job has these keys in front of two others
  have hjob := (jobSection_unique (⟨[], wl, 0, true, []⟩, [])).keys
  rw [jobSection, CompiledSection.keys, List.map_append] at hjob
  exact .mk (List.nodup_append.1 hjob).1 fun s hs => absurd hs List.not_mem_nil

section Compile

variable {lib : Library} {cfg : FriendlyConfig}

/-! ### What is compiled -/

/-- A key holds the values of a parameter in the units of the model. -/
def Resolves (lib : Library) (units : List ParamUnit) (kv : CStr × List CStr) (k : CompiledKey) :
    Prop :=
  k.name = kv.1 ∧ kv.2.mapM (resolveParamValue lib units kv.1) = .ok k.values

variable {kvs : List (CStr × List CStr)} {units : List ParamUnit}

theorem addUserParams_eq
    {s s' : CompiledSection} (h : kvs.foldlM (addUserParam lib units) s = .ok s') :
    ∃ added, s' = .mk s.name (s.keys ++ added) s.subsections ∧
      List.Forall₂ (Resolves lib units) kvs added := by
  induction kvs generalizing s with
  | nil =>
    obtain rfl := Except.ok.inj h
    refine ⟨[], ?_, .nil⟩
    rw [List.append_nil, CompiledSection.mk_eta]
  | cons kv kvs ih =>
    rw [List.foldlM_cons] at h
    obtain ⟨mid, hmid, hrest⟩ := bind_eq_ok h
    rw [addUserParam] at hmid
    obtain ⟨-, hmid⟩ := guard_eq_ok hmid
    obtain ⟨values, hvalues, hmid⟩ := bind_eq_ok hmid
    cases hmid
    obtain ⟨added, rfl, hadded⟩ := ih hrest
    refine ⟨⟨kv.1, values⟩ :: added, ?_, .cons ⟨rfl, hvalues⟩ hadded⟩
    rw [CompiledSection.addKey_keys, List.append_assoc]
    rfl

theorem Resolves.names
    {added : List CompiledKey} (h : List.Forall₂ (Resolves lib units) kvs added) :
    added.map CompiledKey.name = kvs.map Prod.fst := by
  induction h with
  | nil => rfl
  | cons hkv _ ih => rw [List.map_cons, List.map_cons, hkv.1, ih]

theorem Resolves.mem {added : List CompiledKey} (h : List.Forall₂ (Resolves lib units) kvs added)
    {kv : CStr × List CStr} (hkv : kv ∈ kvs) : ∃ k ∈ added, Resolves lib units kv k := by
  induction h with
  | nil => exact absurd hkv List.not_mem_nil
  | cons hfirst _ ih =>
    rcases List.mem_cons.1 hkv with rfl | hmem
    · exact ⟨_, List.mem_cons_self, hfirst⟩
    · obtain ⟨k, hk, hres⟩ := ih hmem
      exact ⟨k, List.mem_cons_of_mem _ hk, hres⟩

theorem applySimulation_eq {simulation : KvList} {s s' : CompiledSection}
    (h : applySimulation simulation s = .ok s') :
    s' = .mk s.name (s.keys ++ simulation.map fun kv => ⟨kv.1, [kv.2]⟩) s.subsections := by
  rw [applySimulation] at h
  induction simulation generalizing s with
  | nil =>
    obtain rfl := Except.ok.inj h
    rw [List.map_nil, List.append_nil, CompiledSection.mk_eta]
  | cons kv simulation ih =>
    rw [List.foldlM_cons] at h
    obtain ⟨mid, hmid, hrest⟩ := bind_eq_ok h
    rw [applySetting] at hmid
    obtain ⟨-, hmid⟩ := guard_eq_ok hmid
    cases hmid
    rw [ih hrest, CompiledSection.addKey_keys, List.append_assoc]
    rfl

/-- What a compiled topology has of the configuration. -/
structure Targets (lib : Library) (cfg : FriendlyConfig) (topology : Topology)
    (top : CompiledTopology) : Prop where
  totalSlots : top.totalSlots = nodeSlots topology
  lpgroups_name : top.lpgroups.name = "LPGROUPS"
  params_name : top.params.name = "PARAMS"
  groups : UniqueKeys top.lpgroups ↔ UniqueGroups cfg topology
  keys : top.params.keys.map CompiledKey.name = paramKeys cfg topology
  resolved : ∀ kv ∈ userParams cfg topology,
    ∃ k ∈ top.params.keys, Resolves lib (paramUnits cfg topology) kv k
  copied : ∀ s ∈ copiedParams topology, s = top.params
  subsections : copiedParams topology = [] → top.params.subsections = []

theorem uniqueKeys_group (name : CStr) {grp : CompiledSection} {names : List CStr}
    (hgrp : grp.subsections = []) (hnames : grp.keys.map CompiledKey.name = names) :
    UniqueKeys ((CompiledSection.mk name [] []).addSubsection grp) ↔ (names.map cstr).Nodup := by
  rw [← hnames, List.map_map]
  constructor
  · intro h
    exact (h.subsections grp List.mem_cons_self).keys
  · intro h
    refine .mk List.nodup_nil fun s hs => ?_
    obtain rfl := List.mem_singleton.1 hs
    rw [← s.mk_eta, hgrp]
    exact .mk h fun s hs => absurd hs List.not_mem_nil

variable {top : CompiledTopology}

theorem compileFabric_targets {fab : Fabric}
    (h : compileFabric lib cfg fab = .ok top) : Targets lib cfg (.parametric fab) top := by
  rw [compileFabric] at h
  split at h
  · cases h
  · rename_i model hmodel
    split at h
    · cases h
    · rename_i host hhost
      obtain ⟨-, h⟩ := guard_eq_ok h
      obtain ⟨-, h⟩ := guard_eq_ok h
      obtain ⟨lay, hlay, h⟩ := bind_eq_ok h
      obtain ⟨-, h⟩ := guard_eq_ok h
      obtain ⟨params, hparams, h⟩ := bind_eq_ok h
      obtain ⟨added, rfl, hadded⟩ := addUserParams_eq hparams
      cases h
      have huser : userParams cfg (.parametric fab) = fabricParams fab ++ host.params.map
        scalarParam := by
        rw [userParams, FriendlyConfig.componentParams, hhost]
      refine
        { totalSlots := ?_, lpgroups_name := rfl, params_name := rfl, groups := ?_, keys := ?_,
          resolved := fun kv hkv => ?_, copied := fun s hs => absurd hs List.not_mem_nil,
          subsections := fun _ => rfl }
      · rw [nodeSlots, hmodel]
        simp only [hlay]
      · simp only [UniqueGroups, groupKeys, hhost, hmodel]
        cases model.routerLp with
        | none => exact uniqueKeys_group _ (by rfl) (by rfl)
        | some routerLp => exact uniqueKeys_group _ (by rfl) (by rfl)
      · rw [paramKeys, huser, ← Resolves.names hadded]
        rfl
      · rw [huser] at hkv
        obtain ⟨k, hk, hres⟩ := Resolves.mem hadded hkv
        refine ⟨k, List.mem_append_right _ hk, ?_⟩
        rw [paramUnits, hmodel]
        exact hres

theorem compileFlat_targets {flatComponent : CStr} {nodeCount : ℤ}
    (h : compileFlat lib cfg flatComponent nodeCount = .ok top) :
    Targets lib cfg (.flat flatComponent nodeCount) top := by
  rw [compileFlat] at h
  split at h
  · cases h
  · rename_i comp hcomp
    obtain ⟨-, h⟩ := guard_eq_ok h
    obtain ⟨-, h⟩ := guard_eq_ok h
    split at h
    · cases h
    · rename_i net hnet
      obtain ⟨params, hparams, h⟩ := bind_eq_ok h
      obtain ⟨added, rfl, hadded⟩ := addUserParams_eq hparams
      cases h
      have huser : userParams cfg (.flat flatComponent nodeCount) =
        comp.params.map scalarParam := by
        rw [userParams, FriendlyConfig.componentParams, hcomp]
      refine
        { totalSlots := rfl, lpgroups_name := rfl, params_name := rfl, groups := ?_, keys := ?_,
          resolved := fun kv hkv => ?_, copied := fun s hs => absurd hs List.not_mem_nil,
          subsections := fun _ => rfl }
      · simp only [UniqueGroups, groupKeys, hcomp, hnet]
        exact uniqueKeys_group _ (by rfl) (by rfl)
      · rw [paramKeys, huser, ← Resolves.names hadded]
        rfl
      · rw [huser] at hkv
        obtain ⟨k, hk, hres⟩ := Resolves.mem hadded hkv
        refine ⟨k, List.mem_append_right _ hk, ?_⟩
        simp only [paramUnits, hcomp, Option.bind_some, hnet]
        exact hres

variable {topology : Topology}

/-- **The parameters and groups of a topology are compiled, and nothing else.** -/
theorem compileTopology_targets (hm : Merged cfg) (ht : cfg.topology = some topology)
    (h : compileTopology lib cfg topology = .ok top) : Targets lib cfg topology top := by
  cases topology with
  | parametric fab => exact compileFabric_targets h
  | flat flatComponent nodeCount => exact compileFlat_targets h
  | explicitGroups lpgroups params =>
    rw [compileTopology] at h
    obtain ⟨-, h⟩ := guard_eq_ok h
    cases h
    obtain ⟨hlpgroups, hparams⟩ := hm.groups lpgroups params ht
    exact
      { totalSlots := rfl
        lpgroups_name := hlpgroups
        params_name := hparams
        groups := Iff.rfl
        keys := rfl
        resolved := fun kv hkv => absurd hkv List.not_mem_nil
        copied := fun s hs => List.mem_singleton.1 hs
        subsections := fun hnil => nomatch hnil }

/-! ### Nodes -/

theorem bookNodes_booked {id : CStr} {totalSlots : ℤ} {nodes booked booked' : List ℤ}
    (h : bookNodes id totalSlots nodes booked = .ok booked') :
    (∀ n ∈ nodes, n ∉ booked) ∧ ∀ n, n ∈ booked' ↔ n ∈ nodes ∨ n ∈ booked := by
  induction nodes generalizing booked with
  | nil =>
    rw [bookNodes] at h
    obtain rfl := Except.ok.inj h
    exact ⟨fun _ hn => absurd hn List.not_mem_nil, fun n => by simp⟩
  | cons idx nodes ih =>
    rw [bookNodes] at h
    obtain ⟨-, h⟩ := guard_eq_ok h
    obtain ⟨hfree, h⟩ := guard_eq_ok h
    obtain ⟨hnodes, hbooked⟩ := ih h
    refine ⟨fun n hn => ?_, fun n => ?_⟩
    · rcases List.mem_cons.1 hn with rfl | hmem
      · exact hfree
      · exact fun hin => hnodes n hmem (List.mem_cons_of_mem _ hin)
    · rw [hbooked, List.mem_cons, List.mem_cons]
      tauto

/-- **Jobs get their nodes**, which nobody else has. -/
theorem placeJobs_placed {totalSlots cursor : ℤ} {jobs : List Job} {booked : List ℤ}
    {placed : List (Job × List ℤ)} (h : placeJobs totalSlots jobs cursor booked = .ok placed) :
    placed = withNodes cursor jobs ∧ (placed.Pairwise fun a b => ∀ n ∈ a.2, n ∉ b.2) ∧
      ∀ p ∈ placed, ∀ n ∈ p.2, n ∉ booked := by
  induction jobs generalizing cursor booked placed with
  | nil =>
    rw [placeJobs] at h
    obtain rfl := Except.ok.inj h
    exact ⟨rfl, .nil, fun _ hp => absurd hp List.not_mem_nil⟩
  | cons j jobs ih =>
    rw [placeJobs] at h
    obtain ⟨booked', hbook, h⟩ := bind_eq_ok h
    obtain ⟨rest, hrest, h⟩ := bind_eq_ok h
    obtain rfl := Except.ok.inj h
    obtain ⟨hnodes, hbooked⟩ := bookNodes_booked hbook
    obtain ⟨rfl, hpair, hfree⟩ := ih hrest
    refine ⟨rfl, List.pairwise_cons.2 ⟨fun p hp n hn hin => ?_, hpair⟩, fun p hp n hn => ?_⟩
    · exact hfree p hp n hin ((hbooked n).2 (.inl hn))
    · rcases List.mem_cons.1 hp with rfl | hmem
      · exact hnodes n hn
      · exact fun hin => hfree p hmem n hn ((hbooked n).2 (.inr hin))

theorem mem_withNodes {cursor : ℤ} {jobs : List Job} {p : Job × List ℤ}
    (hp : p ∈ withNodes cursor jobs) : p.1 ∈ jobs ∧ ∃ c, p.2 = jobNodes c p.1 := by
  induction jobs generalizing cursor with
  | nil => exact absurd hp List.not_mem_nil
  | cons j jobs ih =>
    rcases List.mem_cons.1 hp with rfl | hmem
    · exact ⟨List.mem_cons_self, cursor, rfl⟩
    · obtain ⟨hjob, hnodes⟩ := ih hmem
      exact ⟨List.mem_cons_of_mem _ hjob, hnodes⟩

theorem withNodes_map (cursor : ℤ) (jobs : List Job) :
    (withNodes cursor jobs).map Prod.fst = jobs := by
  induction jobs generalizing cursor with
  | nil => rfl
  | cons j jobs ih => rw [withNodes, List.map_cons, ih]

theorem Job.Wf.nodes_ne_nil {j : Job} (hj : j.Wf) (cursor : ℤ) : jobNodes cursor j ≠ [] := by
  have hpos := hj.ranks_pos
  intro h
  have hlength := congrArg List.length h
  rw [jobNodes, List.length_nil] at hlength
  cases hcontiguous : j.contiguous with
  | true =>
    rw [hcontiguous, if_pos rfl, List.length_map, List.length_range] at hlength
    omega
  | false =>
    have hranks := hj.nodes_length hcontiguous
    rw [hcontiguous, if_neg Bool.false_ne_true] at hlength
    omega

/-! ### The section of a workload -/

theorem inlineWorkload_eq {hostKey : CStr} {cs : List Component} {old wl : Option WorkloadBlock}
    (h : inlineWorkload hostKey cs old = .ok wl) :
    wl = (cs.filterMap Component.workload).getLast?.or old := by
  induction cs generalizing old with
  | nil =>
    rw [inlineWorkload] at h
    obtain rfl := Except.ok.inj h
    rfl
  | cons c cs ih =>
    rw [inlineWorkload] at h
    cases hown : c.workload with
    | none =>
      simp only [hown] at h
      rw [List.filterMap_cons_none hown]
      exact ih h
    | some own =>
      simp only [hown] at h
      obtain ⟨-, h⟩ := guard_eq_ok h
      rw [List.filterMap_cons_some hown, List.getLast?_cons, ih h]
      cases (cs.filterMap Component.workload).getLast? with
      | none => rfl
      | some last => rfl

theorem compileWorkloadJobs_written {hostKey : CStr}
    {sections : List CompiledSection} (hexplicit : copiedParams topology = [])
    (h : compileWorkloadJobs cfg (nodeSlots topology) hostKey = .ok sections) :
    sections = (written cfg topology).sections ∧ ∀ js, written cfg topology = .jobs js →
      cfg.jobs = some js ∧ (withNodes 0 js).Pairwise fun a b => ∀ n ∈ a.2, n ∉ b.2 := by
  have hwritten : written cfg topology =
      match (cfg.components.filterMap Component.workload).getLast?, cfg.jobs with
      | some wl, _ => .single wl
      | none, none => .nothing
      | none, some jobs =>
        match singleJob (nodeSlots topology) jobs with
        | some wl => .single wl
        | none => .jobs jobs := by
    cases topology with
    | explicitGroups lpgroups params => nomatch hexplicit
    | parametric fab => rfl
    | flat flatComponent nodeCount => rfl
  rw [compileWorkloadJobs] at h
  obtain ⟨inlineWl, hinline, h⟩ := bind_eq_ok h
  have hlast := inlineWorkload_eq hinline
  rw [Option.or_none] at hlast
  rw [hwritten, ← hlast]
  cases inlineWl with
  | some wl =>
    cases hjobs : cfg.jobs with
    | some jobs =>
      rw [hjobs] at h
      cases h
    | none =>
      rw [hjobs] at h
      obtain rfl := Except.ok.inj h
      exact ⟨rfl, fun js hjs => nomatch hjs⟩
  | none =>
    cases hjobs : cfg.jobs with
    | none =>
      rw [hjobs] at h
      obtain rfl := Except.ok.inj h
      exact ⟨rfl, fun js hjs => nomatch hjs⟩
    | some jobs =>
      simp only [hjobs] at h
      obtain ⟨-, h⟩ := guard_eq_ok h
      obtain ⟨placed, hplaced, h⟩ := bind_eq_ok h
      obtain ⟨-, h⟩ := guard_eq_ok h
      obtain ⟨rfl, hdisjoint, -⟩ := placeJobs_placed hplaced
      cases hsingle : singleJob (nodeSlots topology) jobs with
      | some wl =>
        simp only [hsingle] at h ⊢
        obtain rfl := Except.ok.inj h
        exact ⟨rfl, fun js hjs => nomatch hjs⟩
      | none =>
        simp only [hsingle] at h ⊢
        obtain rfl := Except.ok.inj h
        refine ⟨rfl, fun js hjs => ?_⟩
        obtain rfl := Written.jobs.inj hjs
        exact ⟨rfl, hdisjoint⟩

/-- **The workload is compiled, in one section.** -/
theorem compileWorkload_written {sections : List CompiledSection}
    (h : compileWorkload cfg topology (nodeSlots topology) = .ok sections) :
    sections = (written cfg topology).sections ∧ ∀ js, written cfg topology = .jobs js →
      cfg.jobs = some js ∧ (withNodes 0 js).Pairwise fun a b => ∀ n ∈ a.2, n ∉ b.2 := by
  cases topology with
  | explicitGroups lpgroups params =>
    obtain rfl := Except.ok.inj h
    exact ⟨rfl, fun js hjs => nomatch hjs⟩
  | parametric fab => exact compileWorkloadJobs_written rfl h
  | flat flatComponent nodeCount => exact compileWorkloadJobs_written rfl h

end Compile

end CodesSim.Config
