import CodesSim.Config.Changes
import CodesSim.Config.NoSilentDrop
import CodesSim.Config.TopologyFields

/-!
# The last document wins

What documents are compiled to is determined by their last definitions (`compile_last_definitions`),
up to the order of two lists in the tree: the sections that are passed through stand in the order of
their last definitions, and the settings of `simulation:`, which are overwritten in place, in the
order of the first ones.  So nothing changes if a document is included twice (`compile_twice`), and
if one is included of which everything is defined again later, only the settings of `simulation:`
may change places (`compile_redefined`).
-/

namespace CodesSim.Config

open LastWins Outcome

/-! ### Configurations up to order -/

/-- Configurations that have the same definitions. -/
structure SameDefinitions (cfg cfg' : FriendlyConfig) : Prop where
  components : cfg.components.Perm cfg'.components
  distinct : (cfg.components.map Component.key).Nodup
  topology : cfg.topology = cfg'.topology
  jobs : cfg.jobs = cfg'.jobs
  passthrough : cfg.passthrough.Perm cfg'.passthrough
  simulation : cfg.simulation.Perm cfg'.simulation
  settings : (cfg.simulation.map Prod.fst).Nodup

/-- Trees of two configurations that differ only in the order of the settings of `simulation:` and
of the sections that are passed through. -/
def SameTree (cfg cfg' : FriendlyConfig) (out out' : List CompiledSection) : Prop :=
  cfg.simulation.Perm cfg'.simulation ∧ cfg.passthrough.Perm cfg'.passthrough ∧
    ∃ lpgroups params workload,
      out = lpgroups :: withSimulation cfg params :: (workload ++ cfg.passthrough) ∧
      out' = lpgroups :: withSimulation cfg' params :: (workload ++ cfg'.passthrough)

namespace SameDefinitions

variable {lib : Library} {cfg cfg' : FriendlyConfig}

theorem findComponent_eq (h : SameDefinitions cfg cfg') (key : CStr) :
    cfg.findComponent key = cfg'.findComponent key := by
  have hfind := find?_perm h.distinct h.components key
  simpa only [FriendlyConfig.findComponent, beq_eq_decide] using hfind

theorem any_workload (h : SameDefinitions cfg cfg') :
    (cfg.components.any fun c => c.workload.isSome) =
      cfg'.components.any fun c => c.workload.isSome := by
  rw [Bool.eq_iff_iff, List.any_eq_true, List.any_eq_true]
  exact exists_congr fun c => and_congr_left fun _ => h.components.mem_iff

theorem compileTopology_eq (h : SameDefinitions cfg cfg') (topology : Topology) :
    compileTopology lib cfg topology = compileTopology lib cfg' topology := by
  cases topology with
  | parametric fab => rw [compileTopology, compileTopology, compileFabric, compileFabric,
    h.findComponent_eq]
  | flat flatComponent nodeCount =>
    rw [compileTopology, compileTopology, compileFlat, compileFlat, h.findComponent_eq]
  | explicitGroups lpgroups params =>
    rw [compileTopology, compileTopology, h.any_workload, h.jobs]

end SameDefinitions

/-! ### Settings -/

theorem applySimulation_ok_iff {simulation : KvList} (hnodup : (simulation.map Prod.fst).Nodup)
    (s : CompiledSection) : (∃ s', applySimulation simulation s = .ok s') ↔
      ∀ kv ∈ simulation, kv.1 ∉ s.keys.map CompiledKey.name := by
  induction simulation generalizing s with
  | nil => exact ⟨fun _ _ hkv => absurd hkv List.not_mem_nil, fun _ => ⟨s, rfl⟩⟩
  | cons kv simulation ih =>
    obtain ⟨hnew, hrest⟩ := List.nodup_cons.1 hnodup
    have hany : (s.keys.any fun existing => existing.name == kv.1) = true ↔
        kv.1 ∈ s.keys.map CompiledKey.name := by
      rw [List.any_eq_true, List.mem_map]
      exact exists_congr fun k => and_congr_right fun _ => beq_iff_eq
    rw [applySimulation, List.foldlM_cons, applySetting, List.forall_mem_cons]
    split_ifs with htaken
    · refine ⟨?_, fun h => absurd (hany.1 htaken) h.1⟩
      rintro ⟨s', hs'⟩
      cases hs'
    · have hkeys : ∀ kv' ∈ simulation,
          kv'.1 ∉ (s.addKey kv.1 [kv.2]).keys.map CompiledKey.name ↔
            kv'.1 ∉ s.keys.map CompiledKey.name := by
        intro kv' hkv'
        have hne : kv'.1 ≠ kv.1 := fun heq => hnew (heq ▸ List.mem_map_of_mem hkv')
        rw [CompiledSection.addKey_keys, List.map_append, List.mem_append, List.map_singleton,
          List.mem_singleton, or_iff_left hne]
      refine (ih hrest (s.addKey kv.1 [kv.2])).trans ?_
      rw [forall₂_congr hkeys, and_iff_right (mt hany.2 htaken)]

/-! ### Workloads -/

theorem inlineWorkload_eq_ok {hostKey : CStr} {cs : List Component}
    {old wl : Option WorkloadBlock} : inlineWorkload hostKey cs old = .ok wl ↔
      (∀ c ∈ cs, c.workload.isSome = true → c.key = hostKey) ∧
        wl = (cs.filterMap Component.workload).getLast?.or old := by
  constructor
  · intro h
    refine ⟨?_, inlineWorkload_eq h⟩
    induction cs generalizing old with
    | nil => exact fun _ hc => absurd hc List.not_mem_nil
    | cons c cs ih =>
      rw [inlineWorkload] at h
      rw [List.forall_mem_cons]
      cases hown : c.workload with
      | none =>
        simp only [hown] at h
        exact ⟨fun hsome => absurd hsome Bool.false_ne_true, ih h⟩
      | some own =>
        simp only [hown] at h
        obtain ⟨hkey, h⟩ := guard_eq_ok h
        exact ⟨fun _ => not_not.1 hkey, ih h⟩
  · rintro ⟨hkeys, rfl⟩
    induction cs generalizing old with
    | nil => rfl
    | cons c cs ih =>
      rw [List.forall_mem_cons] at hkeys
      rw [inlineWorkload]
      cases hown : c.workload with
      | none =>
        rw [List.filterMap_cons_none hown]
        exact ih hkeys.2
      | some own =>
        simp only
        rw [if_neg (not_not.2 (hkeys.1 (by rw [hown]; rfl))), ih hkeys.2,
          List.filterMap_cons_some hown, List.getLast?_cons]
        cases (cs.filterMap Component.workload).getLast? with
        | none => rfl
        | some _ => rfl
variable {out : List CompiledSection}


namespace SameDefinitions

variable {lib : Library} {cfg cfg' : FriendlyConfig}

theorem inlineWorkload_ok (h : SameDefinitions cfg cfg') {hostKey : CStr}
    {wl : Option WorkloadBlock}
    (hok : inlineWorkload hostKey cfg.components none = .ok wl) :
    inlineWorkload hostKey cfg'.components none = .ok wl := by
  rw [inlineWorkload_eq_ok] at hok ⊢
  obtain ⟨hkeys, rfl⟩ := hok
  refine ⟨fun c hc => hkeys c (h.components.mem_iff.2 hc), ?_⟩
  rw [getLast?_perm (h.components.filterMap Component.workload) fun own hown own' hown' => ?_]
  obtain ⟨c, hc, hw⟩ := List.mem_filterMap.1 hown
  obtain ⟨c', hc', hw'⟩ := List.mem_filterMap.1 hown'
  -- both belong to the component that the topology runs
  have hkey := (hkeys c hc (by rw [hw]; rfl)).trans (hkeys c' hc' (by rw [hw']; rfl)).symm
  rw [List.inj_on_of_nodup_map h.distinct hc hc' hkey] at hw
  exact Option.some.inj (hw.symm.trans hw')

theorem compileWorkload_ok (h : SameDefinitions cfg cfg') {topology : Topology} {totalSlots : ℤ}
    {sections : List CompiledSection}
    (hok : compileWorkload cfg topology totalSlots = .ok sections) :
    compileWorkload cfg' topology totalSlots = .ok sections := by
  have hjobs : ∀ hostKey, compileWorkloadJobs cfg totalSlots hostKey = .ok sections →
      compileWorkloadJobs cfg' totalSlots hostKey = .ok sections := by
    intro hostKey hok
    rw [compileWorkloadJobs] at hok ⊢
    obtain ⟨wl, hwl, hok⟩ := bind_eq_ok hok
    rw [h.inlineWorkload_ok hwl, ← h.jobs]
    exact hok
  cases topology with
  | explicitGroups lpgroups params => exact hok
  | parametric fab => exact hjobs _ hok
  | flat flatComponent nodeCount => exact hjobs _ hok

/-- **The same definitions are compiled to the same tree**, up to order. -/
theorem compileConfig_ok (h : SameDefinitions cfg cfg') (hok : compileConfig lib cfg = .ok out) :
    ∃ out', compileConfig lib cfg' = .ok out' ∧ SameTree cfg cfg' out out' := by
  rw [compileConfig] at hok ⊢
  rw [← h.topology]
  cases htopology : cfg.topology with
  | none =>
    rw [htopology] at hok
    cases hok
  | some topology =>
    simp only [htopology] at hok ⊢
    obtain ⟨top, htop, hok⟩ := bind_eq_ok hok
    obtain ⟨params, hparams, hok⟩ := bind_eq_ok hok
    obtain ⟨workload, hworkload, hok⟩ := bind_eq_ok hok
    obtain rfl := Except.ok.inj hok
    have hfree := (applySimulation_ok_iff h.settings top.params).1 ⟨params, hparams⟩
    obtain ⟨params', hparams'⟩ := (applySimulation_ok_iff
      ((h.simulation.map Prod.fst).nodup_iff.1 h.settings) top.params).2
      fun kv hkv => hfree kv (h.simulation.mem_iff.2 hkv)
    refine ⟨top.lpgroups :: params' :: workload ++ cfg'.passthrough, ?_, h.simulation,
      h.passthrough, top.lpgroups, top.params, workload, ?_, ?_⟩
    · rw [← h.compileTopology_eq, htop]
      change (applySimulation cfg'.simulation top.params >>= _) = _
      rw [hparams']
      change (compileWorkload cfg' topology top.totalSlots >>= _) = _
      rw [h.compileWorkload_ok hworkload]
      rfl
    · rw [applySimulation_eq hparams]
      rfl
    · rw [applySimulation_eq hparams']
      rfl

end SameDefinitions

/-! ### Documents -/

/-- The last definitions of two lists of documents are the same. -/
structure SameLast (chs chs' : List Changes) : Prop where
  components : ∀ key, lastOf Component.key key (chs.flatMap Changes.components) =
    lastOf Component.key key (chs'.flatMap Changes.components)
  sections : ∀ name, lastOf sectionKey name (chs.flatMap Changes.sections) =
    lastOf sectionKey name (chs'.flatMap Changes.sections)
  simulation : ∀ name, lastOf Prod.fst name (chs.flatMap Changes.simulation) =
    lastOf Prod.fst name (chs'.flatMap Changes.simulation)
  topology : (chs.filterMap Changes.topology).getLast? = (chs'.filterMap Changes.topology).getLast?
  jobs : (chs.filterMap Changes.jobs).getLast? = (chs'.filterMap Changes.jobs).getLast?

/-- Everything that a document defines is defined again in others. -/
structure Redefined (ch : Changes) (chs : List Changes) : Prop where
  components : ∀ c ∈ ch.components, c.key ∈ (chs.flatMap Changes.components).map Component.key
  sections : ∀ s ∈ ch.sections, sectionKey s ∈ (chs.flatMap Changes.sections).map sectionKey
  simulation : ∀ kv ∈ ch.simulation, kv.1 ∈ (chs.flatMap Changes.simulation).map Prod.fst
  topology : ch.topology ≠ none → chs.filterMap Changes.topology ≠ []
  jobs : ch.jobs ≠ none → chs.filterMap Changes.jobs ≠ []

theorem nodup_simulation (chs : List Changes) : ((merged chs).simulation.map Prod.fst).Nodup :=
  ((merged_simulation_perm chs).map Prod.fst).nodup_iff.2 (nodup_lasts _)

theorem SameLast.sameDefinitions {chs chs' : List Changes} (h : SameLast chs chs') :
    SameDefinitions (merged chs) (merged chs') where
  components := by
    rw [merged_components, merged_components]
    exact lasts_perm h.components
  distinct := by
    rw [merged_components]
    exact nodup_lasts _
  topology := by rw [merged_topology, merged_topology, h.topology]
  jobs := by rw [merged_jobs, merged_jobs, h.jobs]
  passthrough := by
    rw [merged_passthrough, merged_passthrough]
    exact lasts_perm h.sections
  simulation :=
    ((merged_simulation_perm chs).trans (lasts_perm h.simulation)).trans
      (merged_simulation_perm chs').symm
  settings := nodup_simulation chs

variable {baseDocs : List CStr}

variable {mainDoc : CStr}

theorem compile_eq {lib : Library} : compile lib mainDoc baseDocs =
      (allChanges lib mainDoc baseDocs) >>= fun chs => compileConfig lib (merged chs) := by
  rw [compile, mergeDocuments_eq, bind_map]

variable {lib : Library}

theorem compile_last_definitions {mainDoc' : CStr} {baseDocs' : List CStr}
    {chs chs' : List Changes} (hchs : allChanges lib mainDoc baseDocs = .ok chs)
    (hchs' : allChanges lib mainDoc' baseDocs' = .ok chs') (hlast : SameLast chs chs')
    (hok : compile lib mainDoc baseDocs = .ok out) :
    ∃ out', compile lib mainDoc' baseDocs' = .ok out' ∧
      SameTree (merged chs) (merged chs') out out' := by
  rw [compile_eq, hchs] at hok
  rw [compile_eq, hchs']
  exact hlast.sameDefinitions.compileConfig_ok hok

theorem apply_twice {cfg : FriendlyConfig} (h : (cfg.simulation.map Prod.fst).Nodup)
    (ch : Changes) :
    (cfg.apply ch).apply ch = cfg.apply ch := by
  simp only [FriendlyConfig.apply, foldl_put_twice, foldl_overwrite_twice h, ← Option.or_assoc,
    Option.or_self]

theorem merged_twice (pre : List Changes) (ch : Changes) (post : List Changes) :
    merged (pre ++ ch :: ch :: post) = merged (pre ++ ch :: post) := by
  rw [merged, merged, List.foldl_append, List.foldl_append, List.foldl_cons, List.foldl_cons,
    List.foldl_cons, ← merged, apply_twice (nodup_simulation pre)]

theorem compile_twice (mainDoc : CStr) (pre : List CStr) (doc : CStr) (post : List CStr) :
    compile lib mainDoc (pre ++ doc :: doc :: post) = compile lib mainDoc (pre ++ doc :: post) := by
  rw [compile_eq, compile_eq, allChanges, allChanges]
  simp only [List.mapM_append, List.mapM_cons]
  cases pre.mapM (baseChanges lib) with
  | error _ => rfl
  | ok pres =>
    cases baseChanges lib doc with
    | error _ => rfl
    | ok ch =>
      cases post.mapM (baseChanges lib) with
      | error _ => rfl
      | ok posts =>
        cases mainChanges lib mainDoc with
        | error _ => rfl
        | ok main =>
          change compileConfig lib (merged (pres ++ ch :: ch :: posts ++ [main])) =
            compileConfig lib (merged (pres ++ ch :: posts ++ [main]))
          rw [List.append_assoc, List.append_assoc]
          exact congrArg _ (merged_twice pres ch (posts ++ [main]))

variable {chs : List Changes} {ch : Changes}

theorem Redefined.sameLast (h : Redefined ch chs) : SameLast chs (ch :: chs) where
  components key := by
    rw [List.flatMap_cons, lastOf_append_covered key h.components]
  sections name := by
    rw [List.flatMap_cons, lastOf_append_covered name h.sections]
  simulation name := by
    rw [List.flatMap_cons, lastOf_append_covered name h.simulation]
  topology := by
    cases hch : ch.topology with
    | none => rw [List.filterMap_cons_none hch]
    | some topology =>
      rw [List.filterMap_cons_some hch]
      exact (List.getLast?_cons_of_ne_nil (h.topology (hch ▸ nofun))).symm
  jobs := by
    cases hch : ch.jobs with
    | none => rw [List.filterMap_cons_none hch]
    | some jobs =>
      rw [List.filterMap_cons_some hch]
      exact (List.getLast?_cons_of_ne_nil (h.jobs (hch ▸ nofun))).symm

theorem Redefined.passthrough_eq (h : Redefined ch chs) :
    (merged (ch :: chs)).passthrough = (merged chs).passthrough := by
  rw [merged_passthrough, merged_passthrough, List.flatMap_cons]
  exact lasts_append_covered [] h.sections

theorem allChanges_cons {doc : CStr} (hch : baseChanges lib doc = .ok ch)
    (hchs : allChanges lib mainDoc baseDocs = .ok chs) :
    allChanges lib mainDoc (doc :: baseDocs) = .ok (ch :: chs) := by
  rw [allChanges] at hchs ⊢
  obtain ⟨bases, hbases, hchs⟩ := bind_eq_ok hchs
  obtain ⟨main, hmain, hchs⟩ := bind_eq_ok hchs
  obtain rfl := Except.ok.inj hchs
  rw [List.mapM_cons, hch, hbases, hmain]
  rfl

/-- A document of which everything is defined again may be included. -/
theorem compile_redefined {doc : CStr} (hch : baseChanges lib doc = .ok ch)
    (hchs : allChanges lib mainDoc baseDocs = .ok chs) (hredefined : Redefined ch chs)
    (hok : compile lib mainDoc baseDocs = .ok out) :
    ∃ out', compile lib mainDoc (doc :: baseDocs) = .ok out' ∧
      SameTree (merged chs) (merged (ch :: chs)) out out' ∧
        (merged (ch :: chs)).passthrough = (merged chs).passthrough := by
  obtain ⟨out', hout', htree⟩ :=
    compile_last_definitions hchs (allChanges_cons hch hchs) hredefined.sameLast hok
  exact ⟨out', hout', htree, hredefined.passthrough_eq⟩

theorem topologyFields_replaced {root : Yaml} (h : root.find "topology" ≠ none)
    (t t' : TopologyFields) : mergeTopologyFields lib root t = mergeTopologyFields lib root t' := by
  obtain ⟨topo, htopo⟩ := Option.ne_none_iff_exists'.1 h
  rw [mergeTopologyFields, mergeTopologyFields, htopo]
  rfl

/-- **The last document wins**, up to the order of the settings of `simulation:` and of the sections
that are passed through. -/
theorem last_writer_wins (lib : Library) :
    (∀ (mainDoc mainDoc' : CStr) (baseDocs baseDocs' : List CStr) (chs chs' : List Changes)
      (out : List CompiledSection), allChanges lib mainDoc baseDocs = .ok chs →
      allChanges lib mainDoc' baseDocs' = .ok chs' → SameLast chs chs' →
      compile lib mainDoc baseDocs = .ok out →
      ∃ out', compile lib mainDoc' baseDocs' = .ok out' ∧
        SameTree (merged chs) (merged chs') out out') ∧
    (∀ (root : Yaml) (t t' : TopologyFields), root.find "topology" ≠ none →
      mergeTopologyFields lib root t = mergeTopologyFields lib root t') ∧
    (∀ (mainDoc : CStr) (pre : List CStr) (doc : CStr) (post : List CStr),
      compile lib mainDoc (pre ++ doc :: doc :: post) = compile lib mainDoc (pre ++ doc :: post)) ∧
    ∀ (mainDoc : CStr) (baseDocs : List CStr) (doc : CStr) (ch : Changes) (chs : List Changes)
      (out : List CompiledSection), baseChanges lib doc = .ok ch →
      allChanges lib mainDoc baseDocs = .ok chs → Redefined ch chs →
      compile lib mainDoc baseDocs = .ok out →
      ∃ out', compile lib mainDoc (doc :: baseDocs) = .ok out' ∧
        SameTree (merged chs) (merged (ch :: chs)) out out' ∧
          (merged (ch :: chs)).passthrough = (merged chs).passthrough :=
  ⟨fun _ _ _ _ _ _ _ hchs hchs' hlast hok => compile_last_definitions hchs hchs' hlast hok,
    fun _ t t' h => topologyFields_replaced h t t',
    fun mainDoc pre doc post => compile_twice mainDoc pre doc post,
    fun _ _ _ _ _ _ hch hchs hredefined hok => compile_redefined hch hchs hredefined hok⟩

/-! ### Two settings in two documents -/

/-- A main document with both settings. -/
def settingsDoc : CStr :=
  ("schema_version: 1\ntopology:\n  format: groups\n  groups:\n    GRP:\n      repetitions: 1\n" ++
    "      lps:\n        nw-lp: 1\nsimulation:\n  end_time: 5\n  pe_mem_factor: 2\n").toList

/-- A document that sets them the other way round. -/
def settingsBase : CStr := "simulation:\n  pe_mem_factor: 3\n  end_time: 7\n"

/-- The tree of `settingsDoc`. -/
def settingsTree : Yaml :=
  .map [("schema_version", .scalar "1"),
    ("topology", .map [("format", .scalar "groups"),
      ("groups", .map [("GRP", .map [("repetitions", .scalar "1"),
        ("lps", .map [("nw-lp", .scalar "1")])])])]),
    ("simulation", .map [("end_time", .scalar "5"),
      ("pe_mem_factor", .scalar "2")])]

/-- The tree of `settingsBase`. -/
def settingsBaseTree : Yaml :=
  .map [("simulation", .map [("pe_mem_factor", .scalar "3"),
    ("end_time", .scalar "7")])]

/-- A parser that knows the two documents, and whole numbers. -/
def settingsLibrary : Library where
  parse text :=
    if text = settingsDoc then .ok settingsTree
    else if text = settingsBase then .ok settingsBaseTree
    else reject []
  useAssert := false
  classifyValue text :=
    if text ≠ [] ∧ text.all Char.isDigit = true then .bareNumber (strtol text).1 else .plain
  formatNumber number := intStr number.num

/-- What the main document says. -/
def settingsChanges : Changes where
  components := []
  topology := some (.explicitGroups
    (.mk "LPGROUPS" [] [.mk "GRP"
      [⟨"repetitions", ["1"]⟩, ⟨"nw-lp", ["1"]⟩] []])
    (.mk "PARAMS" [] []))
  sections := []
  simulation := [("end_time", "5"), ("pe_mem_factor", "2")]
  jobs := none

/-- What the other document says. -/
def settingsBaseChanges : Changes where
  components := []
  topology := none
  sections := []
  simulation := [("pe_mem_factor", "3"), ("end_time", "7")]
  jobs := none

/-- What is compiled of settings in some order. -/
def settingsSections (simulation : KvList) : List CompiledSection :=
  [.mk "LPGROUPS" [] [.mk "GRP"
      [⟨"repetitions", ["1"]⟩, ⟨"nw-lp", ["1"]⟩] []],
    .mk "PARAMS" (simulation.map fun kv => ⟨kv.1, [kv.2]⟩) []]

theorem settings_read : allChanges settingsLibrary settingsDoc [] = .ok [settingsChanges] ∧
    baseChanges settingsLibrary settingsBase = .ok settingsBaseChanges ∧
    Redefined settingsBaseChanges [settingsChanges] := by
  have hne : settingsBase ≠ settingsDoc := fun heq =>
    absurd (congrArg (fun text : CStr => text.getD 1 ' ') heq) (by decide +kernel)
  have hbase : settingsLibrary.parse settingsBase = .ok settingsBaseTree := by
    simp only [settingsLibrary, if_neg hne, if_true]
  have hmain : settingsLibrary.parse settingsDoc = .ok settingsTree := by
    simp only [settingsLibrary, if_true]
  refine ⟨?_, ?_, nofun, nofun, by decide, nofun, nofun⟩
  · rw [allChanges, List.mapM_nil, pure_bind, mainChanges, parseDocument, hmain]
    with_unfolding_all rfl
  · rw [baseChanges, parseDocument, hbase]
    with_unfolding_all rfl

theorem settings_compiled :
    compileConfig settingsLibrary (merged [settingsChanges]) =
        .ok (settingsSections [("end_time", "5"), ("pe_mem_factor", "2")]) ∧
      compileConfig settingsLibrary (merged [settingsBaseChanges, settingsChanges]) =
        .ok (settingsSections [("pe_mem_factor", "2"), ("end_time", "5")]) := by
  constructor
  · with_unfolding_all rfl
  · with_unfolding_all rfl

/-- The other document may be included. -/
theorem settingsBase_included : ∃ out', compile settingsLibrary settingsDoc [settingsBase] =
    .ok out' ∧ SameTree (merged [settingsChanges]) (merged [settingsBaseChanges, settingsChanges])
      (settingsSections [("end_time", "5"), ("pe_mem_factor", "2")]) out' ∧
    (merged [settingsBaseChanges, settingsChanges]).passthrough =
      (merged [settingsChanges]).passthrough := by
  obtain ⟨hmain, hbase, hredefined⟩ := settings_read
  refine (last_writer_wins settingsLibrary).2.2.2 settingsDoc [] settingsBase settingsBaseChanges
    [settingsChanges] _ hbase hmain hredefined ?_
  rw [compile_eq, hmain]
  exact settings_compiled.1

/-- The settings stand in the order of the first document then, and nothing is passed through. -/
theorem settingsOrder_changed : ∃ out out',
    baseChanges settingsLibrary settingsBase = .ok settingsBaseChanges ∧
    allChanges settingsLibrary settingsDoc [] = .ok [settingsChanges] ∧
    Redefined settingsBaseChanges [settingsChanges] ∧
    compile settingsLibrary settingsDoc [] = .ok out ∧
    compile settingsLibrary settingsDoc [settingsBase] = .ok out' ∧ ¬out.Perm out' := by
  obtain ⟨hmain, hbase, hredefined⟩ := settings_read
  refine ⟨settingsSections [("end_time", "5"), ("pe_mem_factor", "2")],
    settingsSections [("pe_mem_factor", "2"), ("end_time", "5")],
    hbase, hmain, hredefined, ?_, ?_, ?_⟩
  · rw [compile_eq, hmain]
    exact settings_compiled.1
  · rw [compile_eq, allChanges_cons hbase hmain]
    exact settings_compiled.2
  · intro hperm
    have hkeys := hperm.map CompiledSection.keys
    revert hkeys
    decide

end CodesSim.Config
