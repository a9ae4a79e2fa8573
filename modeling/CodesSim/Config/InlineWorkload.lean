import CodesSim.Config.LastWriter
import CodesSim.Config.Placement
import CodesSim.Config.WrittenInline

/-!
# A job on all nodes is an inline workload

A single contiguous job on all nodes is another way to write a workload: documents with the workload
in the component that the topology runs, and without the jobs, are compiled to the same tree.

* `InlinedConfig.compileConfig_ok` : merged configurations that differ so are compiled alike.
* `jobWorkload_read` : the workload of a single job stands in a document.
* `jobs_placed` : the jobs of documents that are compiled.
-/

namespace CodesSim.Config

open LastWins Outcome

section

variable {lib : Library}

/-! ### What is merged -/

/-- The same configuration with a workload in a component, and without jobs. -/
structure InlinedConfig (host : CStr) (wl : WorkloadBlock) (cfg cfg' : FriendlyConfig) : Prop where
  components : ComponentWith host wl cfg.components cfg'.components
  distinct : (cfg.components.map Component.key).Nodup
  topology : cfg'.topology = cfg.topology
  jobs : cfg'.jobs = none
  passthrough : cfg'.passthrough = cfg.passthrough
  simulation : cfg'.simulation = cfg.simulation

theorem flatMap_withoutJobs {α : Type} {f : Changes → List α}
    (hf : ∀ ch : Changes, f ch.withoutJobs = f ch) (chs : List Changes) :
    (chs.map Changes.withoutJobs).flatMap f = chs.flatMap f := by
  rw [List.flatMap_map]
  simp only [hf]

theorem InlinedChanges.inlinedConfig {host : CStr} {wl : WorkloadBlock} {chs chs' : List Changes}
    (h : InlinedChanges host wl chs chs') : InlinedConfig host wl (merged chs) (merged chs') := by
  obtain ⟨before, ch, behind, cs, ⟨above, c, below, hcs, hcs', hkey, hbelow⟩, rfl, rfl, hbehind⟩ :=
    h
  have hpart : ∀ {α : Type} {f : Changes → List α}, (∀ c : Changes, f c.withoutJobs = f c) →
      f { ch with components := cs, jobs := none } = f ch →
      (before.map Changes.withoutJobs ++ { ch with components := cs, jobs := none } ::
        behind.map Changes.withoutJobs).flatMap f = (before ++ ch :: behind).flatMap f := by
    intro α f hf hch
    rw [List.flatMap_append, List.flatMap_append, List.flatMap_cons, List.flatMap_cons,
      flatMap_withoutJobs hf, flatMap_withoutJobs hf, hch]
  refine
    { components := ?_
      distinct := ?_
      topology := ?_
      jobs := ?_
      passthrough := by
        rw [merged_passthrough, merged_passthrough, hpart (fun _ => rfl) rfl]
      simulation := by
        rw [merged_simulation, merged_simulation, hpart (fun _ => rfl) rfl] }
  · -- no definition of the component stands behind the one with the workload
    have hlast : ∀ e ∈ below ++ behind.flatMap Changes.components, e.key ≠ host := by
      intro e he
      rcases List.mem_append.1 he with hmem | hmem
      · exact hbelow e hmem
      · obtain ⟨b, hb, hmem⟩ := List.mem_flatMap.1 hmem
        exact hbehind b hb e hmem
    have hnew : ∀ x : Component, x.key = host →
        x.key ∉ (below ++ behind.flatMap Changes.components).map Component.key := by
      rintro x rfl hmem
      obtain ⟨e, he, heq⟩ := List.mem_map.1 hmem
      exact hlast e he heq
    have hflat : ∀ x : Component, (before.flatMap Changes.components) ++
        ((above ++ x :: below) ++ behind.flatMap Changes.components) =
          (before.flatMap Changes.components ++ above) ++
            x :: (below ++ behind.flatMap Changes.components) := by
      intro x
      simp only [List.append_assoc, List.cons_append]
    rw [merged_components, merged_components, List.flatMap_append, List.flatMap_append,
      List.flatMap_cons, List.flatMap_cons, flatMap_withoutJobs fun _ => rfl,
      flatMap_withoutJobs fun _ => rfl, hcs, hcs', hflat, hflat, lasts_split _ (hnew c hkey),
      lasts_split _ (hnew { c with workload := some wl } hkey)]
    refine ⟨_, c, _, rfl, rfl, hkey, fun e he => ?_⟩
    rintro rfl
    exact hnew c hkey (hkey ▸ mem_keys_lasts.1 (List.mem_map_of_mem he))
  · rw [merged_components]
    exact nodup_lasts _
  · rw [merged_topology, merged_topology, List.filterMap_append, List.filterMap_append,
      List.filterMap_cons, List.filterMap_cons, List.filterMap_map, List.filterMap_map]
    rfl
  · rw [merged_jobs, List.getLast?_eq_none_iff, List.filterMap_eq_nil_iff]
    intro e he
    rcases List.mem_append.1 he with hmem | hmem
    · obtain ⟨b, -, rfl⟩ := List.mem_map.1 hmem
      rfl
    · rcases List.mem_cons.1 hmem with rfl | hmem
      · rfl
      · obtain ⟨b, -, rfl⟩ := List.mem_map.1 hmem
        rfl
variable {jobs : List Job}

variable {topology : Topology} {out : List CompiledSection}


namespace InlinedConfig

variable {cfg cfg' : FriendlyConfig} {host : CStr} {wl : WorkloadBlock}

section

variable (h : InlinedConfig host wl cfg cfg')
include h

theorem findComponent_eq : ∃ c, cfg.findComponent host = some c ∧
      cfg'.findComponent host = some { c with workload := some wl } := by
  obtain ⟨before, c, behind, hcs, hcs', rfl, -⟩ := h.components
  have hdistinct := h.distinct
  rw [hcs, List.map_append, List.map_cons, List.nodup_append] at hdistinct
  have hnone : (before.find? fun e => e.key == c.key) = none := by
    refine List.find?_eq_none.2 fun e he heq => ?_
    exact hdistinct.2.2 e.key (List.mem_map_of_mem he) c.key List.mem_cons_self (beq_iff_eq.1 heq)
  refine ⟨c, ?_, ?_⟩
  · rw [FriendlyConfig.findComponent, hcs, List.find?_append, hnone, Option.none_or,
      List.find?_cons_of_pos (by simp)]
  · rw [FriendlyConfig.findComponent, hcs', List.find?_append, hnone, Option.none_or]
    exact List.find?_cons_of_pos (beq_self_eq_true c.key)

theorem compileTopology_eq
    (hhost : topology.hostKey = host) (hjobs : cfg.jobs.isSome = true) {top : CompiledTopology}
    (hok : compileTopology lib cfg topology = .ok top) :
    compileTopology lib cfg' topology = .ok top := by
  obtain ⟨c, hfind, hfind'⟩ := h.findComponent_eq
  rw [← hok]
  cases topology with
  | explicitGroups lpgroups params =>
    rw [compileTopology, if_pos (.inr hjobs)] at hok
    cases hok
  | parametric fab =>
    obtain rfl : fab.hostsComponent = host := hhost
    rw [compileTopology, compileTopology, compileFabric, compileFabric, hfind, hfind']
  | flat flatComponent nodeCount =>
    obtain rfl : flatComponent = host := hhost
    rw [compileTopology, compileTopology, compileFlat, compileFlat, hfind, hfind']

theorem inlineWorkload_ok (hnone : inlineWorkload host cfg.components none = .ok none) :
    inlineWorkload host cfg'.components none = .ok (some wl) := by
  obtain ⟨before, c, behind, hcs, hcs', hkey, -⟩ := h.components
  rw [inlineWorkload_eq_ok, hcs] at hnone
  rw [inlineWorkload_eq_ok, hcs']
  have hempty : (before ++ c :: behind).filterMap Component.workload = [] := by
    have hlast := hnone.2
    rw [Option.or_none] at hlast
    exact List.getLast?_eq_none_iff.1 hlast.symm
  rw [List.filterMap_eq_nil_iff] at hempty
  have hbefore : before.filterMap Component.workload = [] :=
    List.filterMap_eq_nil_iff.2 fun e he => hempty e (List.mem_append_left _ he)
  have hbehind : behind.filterMap Component.workload = [] :=
    List.filterMap_eq_nil_iff.2 fun e he =>
      hempty e (List.mem_append_right _ (List.mem_cons_of_mem _ he))
  constructor
  · intro e he hsome
    rcases List.mem_append.1 he with hmem | hmem
    · exact hnone.1 e (List.mem_append_left _ hmem) hsome
    · rcases List.mem_cons.1 hmem with rfl | hmem
      · exact hkey
      · exact hnone.1 e (List.mem_append_right _ (List.mem_cons_of_mem _ hmem)) hsome
  · have hown : ({ c with workload := some wl } : Component).workload = some wl := rfl
    rw [List.filterMap_append, hbefore, List.filterMap_cons_some hown, hbehind]
    rfl

/-- **A configuration with one job on all nodes** is compiled like the one with an inline
workload. -/
theorem compileConfig_ok
    (htopology : cfg.topology = some topology) (hhost : topology.hostKey = host)
    (hjobs : cfg.jobs = some jobs) (hsingle : singleJob (nodeSlots topology) jobs = some wl)
    (hm : Merged cfg) (hok : compileConfig lib cfg = .ok out) :
    compileConfig lib cfg' = .ok out := by
  rw [compileConfig] at hok ⊢
  rw [h.topology, htopology]
  simp only [htopology] at hok ⊢
  obtain ⟨top, htop, hok⟩ := bind_eq_ok hok
  obtain ⟨params, hparams, hok⟩ := bind_eq_ok hok
  obtain ⟨workload, hworkload, hok⟩ := bind_eq_ok hok
  rw [h.compileTopology_eq hhost (by rw [hjobs]; rfl) htop, h.simulation]
  change (applySimulation cfg.simulation top.params >>= _) = _
  rw [hparams]
  have hslots := (compileTopology_targets hm htopology htop).totalSlots
  have hrun : ∀ hostKey, hostKey = host →
      compileWorkloadJobs cfg top.totalSlots hostKey = .ok workload →
        compileWorkloadJobs cfg' top.totalSlots hostKey = .ok workload := by
    rintro _ rfl hrun
    rw [compileWorkloadJobs] at hrun ⊢
    obtain ⟨inlineWl, hinline, hrun⟩ := bind_eq_ok hrun
    rw [hjobs] at hrun
    cases inlineWl with
    | some own => cases hrun
    | none =>
      simp only at hrun
      obtain ⟨-, hrun⟩ := guard_eq_ok hrun
      obtain ⟨placed, -, hrun⟩ := bind_eq_ok hrun
      obtain ⟨-, hrun⟩ := guard_eq_ok hrun
      rw [hslots, hsingle] at hrun
      rw [h.inlineWorkload_ok hinline, h.jobs]
      exact hrun
  have hworkload' : compileWorkload cfg' topology top.totalSlots = .ok workload := by
    cases topology with
    | explicitGroups lpgroups params => exact hworkload
    | parametric fab => exact hrun _ hhost hworkload
    | flat flatComponent nodeCount => exact hrun _ hhost hworkload
  change (compileWorkload cfg' topology top.totalSlots >>= _) = _
  rw [hworkload', h.passthrough]
  exact hok

end

end InlinedConfig

/-! ### The workload of a job -/

/-- The only job of one of the documents has the workload `w`. -/
def JobWorkload (lib : Library) (docs : List CStr) (w : Yaml) : Prop :=
  ∃ doc ∈ docs, ∃ root fields, lib.parse doc = .ok root ∧
    root.find "jobs".toList = some (.seq [.map fields]) ∧ ("workload".toList, w) ∈ fields

/-- What is known of the workload of a job whose fields were read. -/
def JobFields.Reads (lib : Library) (fields : List (Option CStr × Yaml)) (j : JobFields) : Prop :=
  ∀ wl, j.wl = some wl → ∃ w owner, (some "workload".toList, w) ∈ fields ∧
    parseWorkload lib w owner = .ok wl

theorem jobField_reads {fields : List (Option CStr × Yaml)} {j j' : JobFields}
    {f : Option CStr × Yaml} (hf : f ∈ fields) (hj : j.Reads lib fields)
    (h : jobField lib j f = .ok j') : j'.Reads lib fields := by
  rw [jobField] at h
  obtain ⟨k, hk, h⟩ := bind_eq_ok h
  split_ifs at h with hid hworkload
  · obtain ⟨id, -, h⟩ := bind_eq_ok h
    cases h
    exact hj
  · obtain ⟨wl, hwl, h⟩ := bind_eq_ok h
    cases h
    rintro _ heq
    obtain rfl := Option.some.inj heq
    obtain ⟨key, node⟩ := f
    cases key with
    | some key =>
      cases hk
      exact ⟨node, _, hworkload ▸ hf, hwl⟩
    | none =>
      -- an element of a list has no key, or an empty one
      rw [keyOf, hworkload] at hk
      split_ifs at hk
      · cases hk
      · exact absurd (Except.ok.inj hk) (by decide)
  · obtain ⟨text, -, h⟩ := bind_eq_ok h
    obtain ⟨ranks, -, h⟩ := bind_eq_ok h
    cases h
    exact hj
  · obtain ⟨p, -, h⟩ := bind_eq_ok h
    cases h
    exact hj
  · cases h
  · cases h

theorem jobFields_reads {fields all : List (Option CStr × Yaml)} (hall : ∀ f ∈ fields, f ∈ all)
    {j j' : JobFields} (hj : j.Reads lib all) (h : fields.foldlM (jobField lib) j = .ok j') :
    j'.Reads lib all := by
  induction fields generalizing j with
  | nil =>
    cases h
    exact hj
  | cons f fields ih =>
    rw [List.forall_mem_cons] at hall
    rw [List.foldlM_cons] at h
    obtain ⟨mid, hmid, hrest⟩ := bind_eq_ok h
    exact ih hall.2 (jobField_reads hall.1 hj hmid) hrest

theorem finishJob_workload {fields : JobFields} {j : Job}
    (h : finishJob jobs fields = .ok j) : fields.wl = some j.wl := by
  rw [finishJob] at h
  obtain ⟨-, h⟩ := guard_eq_ok h
  obtain ⟨-, h⟩ := guard_eq_ok h
  cases hwl : fields.wl with
  | none =>
    rw [hwl] at h
    cases h
  | some wl =>
    simp only [hwl] at h
    split at h
    · cases h
    · obtain ⟨-, h⟩ := guard_eq_ok h
      split at h
      · cases h
      · obtain ⟨-, h⟩ := guard_eq_ok h
        cases h
        rfl

theorem addJob_eq_ok {jobs' : List Job} {jnode : Option CStr × Yaml}
    (h : addJob lib jobs jnode = .ok jobs') : ∃ fields j w owner, jnode.2 = .map fields ∧
      jobs' = jobs ++ [j] ∧ ("workload".toList, w) ∈ fields ∧
      parseWorkload lib w owner = .ok j.wl := by
  rw [addJob] at h
  obtain ⟨hmap, h⟩ := guard_eq_ok h
  obtain ⟨read, hread, h⟩ := bind_eq_ok h
  obtain ⟨j, hj, h⟩ := bind_eq_ok h
  cases h
  obtain ⟨key, node⟩ := jnode
  cases node with
  | scalar _ => exact absurd rfl hmap
  | seq _ => exact absurd rfl hmap
  | map fields =>
    have hempty : JobFields.Reads lib (Yaml.map fields).children ⟨[], none, none, none⟩ := by
      intro wl hwl
      cases hwl
    obtain ⟨w, owner, hmem, hparse⟩ := jobFields_reads (fun _ hf => hf) hempty hread j.wl
      (finishJob_workload hj)
    obtain ⟨m, hm, heq⟩ := List.mem_map.1 hmem
    obtain ⟨hkey, rfl⟩ := Prod.mk.inj heq
    refine ⟨fields, j, m.2, owner, rfl, rfl, ?_, hparse⟩
    rw [← Option.some.inj hkey]
    exact hm

theorem addJobs_length {items : List Yaml} {jobs' : List Job}
    (h : (Yaml.seq items).children.foldlM (addJob lib) jobs = .ok jobs') :
    jobs'.length = jobs.length + items.length := by
  induction items generalizing jobs with
  | nil =>
    cases h
    rfl
  | cons item items ih =>
    rw [Yaml.children, List.map_cons, List.foldlM_cons] at h
    obtain ⟨mid, hmid, hrest⟩ := bind_eq_ok h
    obtain ⟨_, _, _, _, -, rfl, -, -⟩ := addJob_eq_ok hmid
    rw [ih hrest, List.length_append, List.length_singleton, List.length_cons]
    omega

theorem jobWorkload_read {mainDoc : CStr} {baseDocs : List CStr} {cfg : FriendlyConfig} {j : Job}
    (hmerge : mergeDocuments lib mainDoc baseDocs = .ok cfg) (hjobs : cfg.jobs = some [j]) :
    ∃ w owner, JobWorkload lib (baseDocs ++ [mainDoc]) w ∧
      parseWorkload lib w owner = .ok j.wl := by
  obtain ⟨doc, hdoc, root, items, hparsed, hfind, hfold⟩ := jobs_read hmerge hjobs
  have hone := addJobs_length hfold
  rw [List.length_singleton, List.length_nil, Nat.zero_add] at hone
  obtain ⟨item, rfl⟩ := List.length_eq_one_iff.1 hone.symm
  obtain ⟨js, hjs, hrest⟩ := bind_eq_ok hfold
  cases hrest
  obtain ⟨fields, j', w, owner, rfl, heq, hmem, hparse⟩ := addJob_eq_ok hjs
  obtain rfl := List.singleton_inj.1 heq
  exact ⟨w, owner, ⟨doc, hdoc, root, fields, hparsed, hfind, hmem⟩, hparse⟩

/-! ### Jobs that are compiled -/

/-- The section of jobs that have their nodes: one job on all nodes is written like a workload. -/
def placedSection (totalSlots : ℤ) (placed : List (Job × List ℤ)) : CompiledSection :=
  match singleJob totalSlots (placed.map Prod.fst) with
  | some wl => workloadSection wl
  | none => jobsSection placed

theorem compileWorkloadJobs_placement {cfg : FriendlyConfig} {totalSlots : ℤ} {hostKey : CStr}
    (hjobs : cfg.jobs = some jobs) (hwf : ∀ j ∈ jobs, j.Wf)
    (hlisted : ∀ j ∈ jobs, ∀ n ∈ j.nodes, 0 ≤ n) {sections : List CompiledSection}
    (h : compileWorkloadJobs cfg totalSlots hostKey = .ok sections) :
    ∃ placed, placed.map Prod.fst = jobs ∧ Placement totalSlots placed ∧
      sections = [placedSection totalSlots placed] := by
  rw [compileWorkloadJobs] at h
  obtain ⟨inlineWl, -, h⟩ := bind_eq_ok h
  rw [hjobs] at h
  cases inlineWl with
  | some own => cases h
  | none =>
    simp only at h
    obtain ⟨-, h⟩ := guard_eq_ok h
    obtain ⟨placed, hplaced, h⟩ := bind_eq_ok h
    obtain ⟨hranks, h⟩ := guard_eq_ok h
    have hmap : placed.map Prod.fst = jobs := by
      rw [(placeJobs_placed hplaced).1, withNodes_map]
    refine ⟨placed, hmap, placeJobs_placement hwf hlisted hplaced (Int.not_lt.1 hranks), ?_⟩
    rw [placedSection, hmap]
    cases hsingle : singleJob totalSlots jobs with
    | none =>
      rw [hsingle] at h
      exact (Except.ok.inj h).symm
    | some wl =>
      rw [hsingle] at h
      exact (Except.ok.inj h).symm

theorem compileConfig_placement {cfg : FriendlyConfig} (hm : Merged cfg)
    (htopology : cfg.topology = some topology) (hjobs : cfg.jobs = some jobs)
    (hlisted : ∀ j ∈ jobs, ∀ n ∈ j.nodes, 0 ≤ n)
    (h : compileConfig lib cfg = .ok out) :
    ∃ placed, placed.map Prod.fst = jobs ∧ Placement (nodeSlots topology) placed ∧
      ∃ lpgroups params, out =
        lpgroups :: params :: placedSection (nodeSlots topology) placed :: cfg.passthrough := by
  rw [compileConfig] at h
  simp only [htopology] at h
  obtain ⟨top, htop, h⟩ := bind_eq_ok h
  obtain ⟨params, -, h⟩ := bind_eq_ok h
  obtain ⟨workload, hworkload, h⟩ := bind_eq_ok h
  obtain rfl := Except.ok.inj h
  rw [(compileTopology_targets hm htopology htop).totalSlots] at hworkload
  have hrun : ∃ hostKey, compileWorkloadJobs cfg (nodeSlots topology) hostKey = .ok workload := by
    cases topology with
    | explicitGroups lpgroups params =>
      rw [compileTopology, if_pos (.inr (by rw [hjobs]; rfl))] at htop
      cases htop
    | parametric fab => exact ⟨_, hworkload⟩
    | flat flatComponent nodeCount => exact ⟨_, hworkload⟩
  obtain ⟨hostKey, hrun⟩ := hrun
  obtain ⟨placed, hmap, hplacement, rfl⟩ :=
    compileWorkloadJobs_placement hjobs (hm.jobs jobs hjobs) hlisted hrun
  exact ⟨placed, hmap, hplacement, top.lpgroups, params, rfl⟩

theorem compile_writtenInline {mainDoc mainDoc' : CStr} {baseDocs baseDocs' : List CStr}
    {cfg : FriendlyConfig} {wl : WorkloadBlock}
    (hmerge : mergeDocuments lib mainDoc baseDocs = .ok cfg)
    (htopology : cfg.topology = some topology) (hjobs : cfg.jobs = some jobs)
    (hsingle : singleJob (nodeSlots topology) jobs = some wl)
    (hcompile : compileConfig lib cfg = .ok out) {w : Yaml} {owner : CStr}
    (hparse : parseWorkload lib w owner = .ok wl)
    (hinline : WrittenInline lib topology.hostKey w (documents mainDoc baseDocs)
      (documents mainDoc' baseDocs')) : compile lib mainDoc' baseDocs' = .ok out := by
  have hm := merged_mergeDocuments hmerge
  rw [mergeDocuments_eq] at hmerge
  obtain ⟨chs, hchs, rfl⟩ := map_eq_ok hmerge
  rw [allChanges_documents] at hchs
  obtain ⟨chs', hchs', hinlined⟩ := mapM_writtenInline hparse hinline hchs
  rw [compile_eq, allChanges_documents, hchs']
  exact hinlined.inlinedConfig.compileConfig_ok htopology rfl hjobs hsingle hm hcompile

/-- **The jobs of documents that are compiled are placed**, and one contiguous job on all nodes is
the same as its workload in the component that the topology runs. -/
theorem jobs_placed {mainDoc : CStr} {baseDocs : List CStr} {cfg : FriendlyConfig}
    {topology : Topology} {jobs : List Job} {out : List CompiledSection}
    (hmerge : mergeDocuments lib mainDoc baseDocs = .ok cfg)
    (htopology : cfg.topology = some topology) (hjobs : cfg.jobs = some jobs)
    (hcompile : compile lib mainDoc baseDocs = .ok out) :
    (∃ placed, placed.map Prod.fst = jobs ∧ Placement (nodeSlots topology) placed ∧
      ∃ lpgroups params, out =
        lpgroups :: params :: placedSection (nodeSlots topology) placed :: cfg.passthrough) ∧
    ∀ j, jobs = [j] → j.contiguous = true → j.ranks = nodeSlots topology →
      (∃ w owner, JobWorkload lib (baseDocs ++ [mainDoc]) w ∧
        parseWorkload lib w owner = .ok j.wl) ∧
      ∀ w owner mainDoc' baseDocs', parseWorkload lib w owner = .ok j.wl →
        WrittenInline lib topology.hostKey w (documents mainDoc baseDocs)
          (documents mainDoc' baseDocs') →
        compile lib mainDoc' baseDocs' = .ok out := by
  rw [compile, hmerge] at hcompile
  change compileConfig lib cfg = .ok out at hcompile
  refine ⟨?_, ?_⟩
  · obtain ⟨_, _, _, items, -, -, hfold⟩ := jobs_read hmerge hjobs
    exact compileConfig_placement (merged_mergeDocuments hmerge) htopology hjobs (jobs_listed hfold)
      hcompile
  · rintro j rfl hcontiguous hranks
    refine ⟨jobWorkload_read hmerge hjobs, fun w owner mainDoc' baseDocs' hparse hinline => ?_⟩
    exact compile_writtenInline hmerge htopology hjobs (if_pos ⟨hcontiguous, hranks⟩)
      hcompile hparse hinline

end

/-! ### Two nodes with one job -/

/-- The lines of a document on two nodes, with more lines in front and in the component. -/
def nodesDoc (front component : CStr) : CStr :=
  front ++ ("schema_version: 1\n" ++
    "components:\n  host:\n    model: nw-lp\n    network: simplep2p\n" ++ component ++
    "topology:\n  format: flat\n  component: host\n  nodes: 2\n")

/-- One job runs on both nodes. -/
def jobDoc : CStr :=
  nodesDoc ("jobs:\n" ++ ("  - id: app\n    workload:\n      type: synthetic\n" ++
    "    ranks: 2\n    placement:\n      policy: contiguous\n")) []

/-- The component has the workload. -/
def inlineDoc : CStr := nodesDoc [] "    workload:\n      type: synthetic\n"

/-- A workload without settings. -/
def plainWorkload : Yaml := .map [("type", .scalar "synthetic")]

/-- The members of a document on two nodes. -/
def nodesMembers (front component : List (CStr × Yaml)) : List (CStr × Yaml) :=
  front ++ [("schema_version".toList, .scalar "1".toList),
    ("components".toList, .map [("host".toList, .map ([("model".toList, .scalar "nw-lp".toList),
      ("network".toList, .scalar "simplep2p".toList)] ++ component))]),
    ("topology".toList, .map [("format".toList, .scalar "flat".toList),
      ("component".toList, .scalar "host".toList), ("nodes".toList, .scalar "2".toList)])]

/-- The members of `jobDoc`. -/
def jobMembers : List (CStr × Yaml) :=
  nodesMembers [("jobs", .seq [.map [("id", .scalar "app"),
    ("workload", plainWorkload), ("ranks", .scalar "2"),
    ("placement", .map [("policy", .scalar "contiguous")])]])] []

/-- A parser that knows the two documents, and whole numbers. -/
def nodesLibrary : Library where
  parse text :=
    if text = jobDoc then .ok (.map jobMembers)
    else if text = inlineDoc then .ok (.map (nodesMembers [] [("workload", plainWorkload)]))
    else reject []
  useAssert := false
  classifyValue text :=
    if text ≠ [] ∧ text.all Char.isDigit = true then .bareNumber (strtol text).1 else .plain
  formatNumber number := intStr number.num

/-- The job. -/
def nodesJob : Job :=
  ⟨"app", ⟨"synthetic", none, none, none, none⟩, 2, true, []⟩

/-- What is merged of `jobDoc`. -/
def nodesConfig : FriendlyConfig where
  components := [⟨"host", "nw-lp", "simplep2p", [], none⟩]
  topology := some (.flat "host" 2)
  jobs := some [nodesJob]
  passthrough := []
  simulation := []

/-- What both documents are compiled to. -/
def nodesSections : List CompiledSection :=
  [.mk "LPGROUPS" [] [.mk "MODELNET_GRP"
      [⟨"repetitions", ["2"]⟩, ⟨"nw-lp", ["1"]⟩,
        ⟨"modelnet_simplep2p", ["1"]⟩] []],
    .mk "PARAMS" [⟨"modelnet_order", ["simplep2p"]⟩] [],
    .mk "WORKLOAD" [⟨"type", ["synthetic"]⟩] []]

theorem nodes_parsed : nodesLibrary.parse jobDoc = .ok (.map jobMembers) ∧
    nodesLibrary.parse inlineDoc =
      .ok (.map (nodesMembers [] [("workload", plainWorkload)])) := by
  have hne : inlineDoc ≠ jobDoc := fun heq =>
    absurd (congrArg List.head? heq) (by decide +kernel)
  constructor
  · simp only [nodesLibrary, if_true]
  · simp only [nodesLibrary, if_neg hne, if_true]

theorem nodes_merged : mergeDocuments nodesLibrary jobDoc [] = .ok nodesConfig ∧
    compile nodesLibrary jobDoc [] = .ok nodesSections := by
  have hmerge : mergeDocuments nodesLibrary jobDoc [] = .ok nodesConfig := by
    rw [mergeDocuments, List.foldlM_nil, pure_bind, mergeMain, parseDocument_map nodes_parsed.1]
    with_unfolding_all rfl
  refine ⟨hmerge, ?_⟩
  rw [compile, hmerge]
  with_unfolding_all rfl

theorem nodes_writtenInline : WrittenInline nodesLibrary "host".toList plainWorkload
    (documents jobDoc []) (documents inlineDoc []) := by
  have hinline : WithInline "host".toList plainWorkload jobMembers
      (nodesMembers (jobMembers.take 1) [("workload".toList, plainWorkload)]) := by
    refine ⟨jobMembers.take 2, _, _, jobMembers.drop 3, rfl, rfl, ?_, _, _, rfl, rfl,
      [], _, _, [], rfl, rfl, nofun, _, [], rfl, rfl, nofun⟩
    decide
  change WrittenInline nodesLibrary "host".toList plainWorkload [⟨jobDoc, false⟩]
    [⟨inlineDoc, false⟩]
  exact .here (.intro nodes_parsed.1 nodes_parsed.2 ⟨_, hinline, rfl⟩) .nil

/-- The job is placed, and may be written in the component. -/
theorem nodesJob_placed : (∃ placed, placed.map Prod.fst = [nodesJob] ∧ Placement 2 placed ∧
    ∃ lpgroups params, nodesSections = [lpgroups, params, placedSection 2 placed]) ∧
    compile nodesLibrary inlineDoc [] = .ok nodesSections := by
  obtain ⟨hmerge, hcompile⟩ := nodes_merged
  have hparse : parseWorkload nodesLibrary plainWorkload [] = .ok nodesJob.wl := by
    with_unfolding_all rfl
  have h := jobs_placed hmerge rfl rfl hcompile
  exact ⟨h.1, (h.2 nodesJob rfl rfl rfl).2 plainWorkload [] inlineDoc [] hparse nodes_writtenInline⟩

end CodesSim.Config
