import CodesSim.Config.Targets

/-!
# No setting is dropped

A tree drops nothing if a lookup of every setting finds it (`NothingDropped`).  The compiler appends
the settings of several blocks to one section and the pass-through sections to its own, and rejects
only some of the names that agree; `NoCollision` says that none do.

* `nothingDropped_of_noCollision` : then every setting is found.
* `nothingDropped_iff` : and otherwise one is not.
-/

namespace CodesSim.Config

open Outcome

/-- The sections that are copied as they are. -/
def copiedSections (cfg : FriendlyConfig) (topology : Topology) : List CompiledSection :=
  copiedParams topology ++ cfg.passthrough

/-- The tree drops no setting: names in it are unique, and every setting is what a lookup finds. -/
structure NothingDropped (lib : Library) (cfg : FriendlyConfig) (topology : Topology)
    (out : List CompiledSection) : Prop where
  keys : ∀ s ∈ out, UniqueKeys s
  sections : DistinctNames out
  params : ∀ kv ∈ userParams cfg topology, ∃ values,
    kv.2.mapM (resolveParamValue lib (paramUnits cfg topology) kv.1) = .ok values ∧
      lookupKey (emitSections out) ["PARAMS"] kv.1 = some (values.map cstr)
  simulation : ∀ kv ∈ cfg.simulation,
    lookupKey (emitSections out) ["PARAMS"] kv.1 = some [cstr kv.2]
  workload : ∀ p ∈ (written cfg topology).settings,
    lookupKey (emitSections out) p.1 p.2.name = some (p.2.values.map cstr)
  copied : ∀ s ∈ copiedSections cfg topology, UniqueNames s ∧ ∀ p ∈ s.settings,
    lookupKey (emitSections out) p.1 p.2.name = some (p.2.values.map cstr)

/-- No two settings that go to one section have the same name, nor have two sections. -/
structure NoCollision (cfg : FriendlyConfig) (topology : Topology) : Prop where
  params : ((paramKeys cfg topology ++ cfg.simulation.map Prod.fst).map cstr).Nodup
  groups : UniqueGroups cfg topology
  copied : ∀ s ∈ copiedSections cfg topology, UniqueNames s
  workload : ∀ name ∈ (written cfg topology).names, ∀ s ∈ cfg.passthrough,
    iequals name s.name = false
  jobs : ∀ js, written cfg topology = .jobs js → js.Pairwise fun a b => iequals a.id b.id = false

/-! ### What is emitted -/

/-- `PARAMS` with the settings of `simulation:`. -/
def withSimulation (cfg : FriendlyConfig) (params : CompiledSection) : CompiledSection :=
  .mk params.name (params.keys ++ cfg.simulation.map fun kv => ⟨kv.1, [kv.2]⟩) params.subsections

/-- The sections that a configuration is compiled to. -/
structure Emitted (lib : Library) (cfg : FriendlyConfig) (topology : Topology)
    (top : CompiledTopology) (out : List CompiledSection) : Prop where
  merged : Merged cfg
  targets : Targets lib cfg topology top
  out_eq : out = top.lpgroups :: withSimulation cfg top.params ::
    ((written cfg topology).sections ++ cfg.passthrough)
  jobs : ∀ js, written cfg topology = .jobs js →
    (∀ j ∈ js, j.Wf) ∧ (withNodes 0 js).Pairwise fun a b => ∀ n ∈ a.2, n ∉ b.2

theorem compileConfig_emitted {lib : Library} {cfg : FriendlyConfig} {topology : Topology}
    {out : List CompiledSection} (hm : Merged cfg) (ht : cfg.topology = some topology)
    (h : compileConfig lib cfg = .ok out) : ∃ top, Emitted lib cfg topology top out := by
  rw [compileConfig] at h
  simp only [ht] at h
  obtain ⟨top, htop, h⟩ := bind_eq_ok h
  obtain ⟨params, hparams, h⟩ := bind_eq_ok h
  obtain ⟨workload, hworkload, h⟩ := bind_eq_ok h
  obtain rfl := Except.ok.inj h
  have htargets := compileTopology_targets hm ht htop
  rw [htargets.totalSlots] at hworkload
  obtain ⟨rfl, hjobs⟩ := compileWorkload_written hworkload
  refine ⟨top, hm, htargets, ?_, fun js hjs => ?_⟩
  · rw [applySimulation_eq hparams]
    rfl
  · obtain ⟨hcfg, hdisjoint⟩ := hjobs js hjs
    exact ⟨hm.jobs js hcfg, hdisjoint⟩

namespace Emitted

variable {lib : Library} {cfg : FriendlyConfig} {topology : Topology} {top : CompiledTopology}
  {out : List CompiledSection}

theorem lpgroups_mem (h : Emitted lib cfg topology top out) : top.lpgroups ∈ out := by
  rw [h.out_eq]
  exact List.mem_cons_self

theorem params_mem (h : Emitted lib cfg topology top out) : withSimulation cfg
    top.params ∈ out := by
  rw [h.out_eq]
  exact List.mem_cons_of_mem _ List.mem_cons_self

variable {s : CompiledSection}

section

variable (h : Emitted lib cfg topology top out)
include h

theorem workload_mem (hs : s ∈ (written cfg topology).sections) : s ∈ out := by
  rw [h.out_eq]
  exact List.mem_cons_of_mem _ (List.mem_cons_of_mem _ (List.mem_append_left _ hs))

theorem passthrough_mem (hs : s ∈ cfg.passthrough) : s ∈ out := by
  rw [h.out_eq]
  exact List.mem_cons_of_mem _ (List.mem_cons_of_mem _ (List.mem_append_right _ hs))

theorem distinct_iff :
    DistinctNames out ↔ ∀ name ∈ (written cfg topology).names, ∀ s ∈ cfg.passthrough,
      iequals name s.name = false := by
  have hnames : ∀ s ∈ (written cfg topology).sections,
      iequals "LPGROUPS" s.name = false ∧ iequals "PARAMS" s.name = false := by
    cases written cfg topology with
    | nothing => exact fun s hs => absurd hs List.not_mem_nil
    | single wl =>
      intro s hs
      rw [List.mem_singleton.1 hs]
      exact ⟨rfl, rfl⟩
    | jobs js =>
      intro s hs
      rw [List.mem_singleton.1 hs]
      exact ⟨rfl, rfl⟩
  have hworkload : (written cfg topology).sections.Pairwise
      fun a b => iequals a.name b.name = false := by
    cases written cfg topology with
    | nothing => exact .nil
    | single wl => exact List.pairwise_singleton _ _
    | jobs js => exact List.pairwise_singleton _ _
  rw [h.out_eq, DistinctNames, List.pairwise_cons, List.pairwise_cons, List.pairwise_append,
    Written.names_eq]
  constructor
  · rintro ⟨-, -, -, -, hpass⟩ name hname s hs
    obtain ⟨w, hw, rfl⟩ := List.mem_map.1 hname
    exact hpass w hw s hs
  · intro hpass
    have hreserved : ∀ s ∈ (written cfg topology).sections ++ cfg.passthrough,
        iequals "LPGROUPS" s.name = false ∧ iequals "PARAMS" s.name = false := by
      intro s hs
      rcases List.mem_append.1 hs with hw | hp
      · exact hnames s hw
      · rw [iequals_comm, iequals_comm "PARAMS"]
        exact h.merged.reserved s hp
    refine ⟨fun s hs => ?_, fun s hs => ?_, hworkload, h.merged.distinct, fun w hw s hs =>
      hpass w.name (List.mem_map_of_mem hw) s hs⟩
    · rw [h.targets.lpgroups_name]
      rcases List.mem_cons.1 hs with rfl | hmem
      · rw [withSimulation, CompiledSection.name, h.targets.params_name]
        rfl
      · exact (hreserved s hmem).1
    · rw [withSimulation, CompiledSection.name, h.targets.params_name]
      exact (hreserved s hs).2

theorem params_names : (withSimulation cfg top.params).keys.map (fun k => cstr k.name) =
      (paramKeys cfg topology ++ cfg.simulation.map Prod.fst).map cstr := by
  rw [withSimulation, CompiledSection.keys, ← h.targets.keys, List.map_append, List.map_append,
    List.map_map, List.map_map, List.map_map]
  rfl

end

/-! ### Keys -/

theorem params_unique (h : Emitted lib cfg topology top out) (hc : NoCollision cfg topology) :
    UniqueKeys (withSimulation cfg top.params) := by
  refine .mk ?_ fun s hs => ?_
  · have hnames := h.params_names
    rw [withSimulation, CompiledSection.keys] at hnames
    rw [hnames]
    exact hc.params
  · cases hcopied : copiedParams topology with
    | nil =>
      rw [h.targets.subsections hcopied] at hs
      exact absurd hs List.not_mem_nil
    | cons params rest =>
      have hmem : params ∈ copiedParams topology := by rw [hcopied]; exact List.mem_cons_self
      have hunique := hc.copied params (List.mem_append_left _ hmem)
      rw [h.targets.copied params hmem] at hunique
      exact hunique.uniqueKeys.subsections s hs

theorem workload_unique {w : Written} (hs : s ∈ w.sections) : UniqueKeys s := by
  cases w with
  | nothing => exact absurd hs List.not_mem_nil
  | single wl =>
    rw [List.mem_singleton.1 hs]
    exact workloadSection_unique wl
  | jobs js =>
    rw [List.mem_singleton.1 hs]
    refine .mk (List.nodup_singleton _) fun sub hsub => ?_
    obtain ⟨placed, -, rfl⟩ := List.mem_map.1 hsub
    exact jobSection_unique placed

theorem out_unique (h : Emitted lib cfg topology top out) (hc : NoCollision cfg topology)
    (hs : s ∈ out) : UniqueKeys s := by
  rw [h.out_eq] at hs
  rcases List.mem_cons.1 hs with rfl | hs
  · exact h.targets.groups.2 hc.groups
  · rcases List.mem_cons.1 hs with rfl | hs
    · exact h.params_unique hc
    · rcases List.mem_append.1 hs with hw | hp
      · exact workload_unique hw
      · exact (hc.copied s (List.mem_append_right _ hp)).uniqueKeys

/-! ### Jobs -/

theorem distinct_jobs_iff (js : List Job) :
    DistinctNames ((withNodes 0 js).map jobSection) ↔
      js.Pairwise fun a b => iequals a.id b.id = false := by
  rw [DistinctNames, List.pairwise_map]
  conv_rhs => rw [← withNodes_map 0 js, List.pairwise_map]
  rfl

theorem findKey_nodes (placed : Job × List ℤ) :
    findKey (jobSection placed).entries (cstr "nodes") = some (placed.2.map intStr) := by
  have hmem : ⟨"nodes", placed.2.map intStr⟩ ∈ (jobSection placed).keys :=
    List.mem_append_right _ (List.mem_cons_of_mem _ List.mem_cons_self)
  have hfound := findKey_emitted (jobSection_unique placed).keys
    (emitSections (jobSection placed).subsections) hmem
  rw [show (placed.2.map intStr).map cstr = placed.2.map intStr from ?_] at hfound
  · exact hfound
  · rw [List.map_map]
    exact List.map_congr_left fun n _ => cstr_intStr n

/-- **Jobs whose nodes are found have different names**, as no two of them have the same nodes. -/
theorem jobs_distinct (h : Emitted lib cfg topology top out) {js : List Job}
    (hjs : written cfg topology = .jobs js) (hsections : DistinctNames out)
    (hfound : ∀ p ∈ (written cfg topology).settings,
      lookupKey (emitSections out) p.1 p.2.name = some (p.2.values.map cstr)) :
    js.Pairwise fun a b => iequals a.id b.id = false := by
  obtain ⟨hwf, hdisjoint⟩ := h.jobs js hjs
  have hmem : jobsSection (withNodes 0 js) ∈ out := h.workload_mem (by
    rw [hjs]
    exact List.mem_cons_self)
  refine (distinct_jobs_iff js).1
    (pairwise_of_open (fun es => findKey es (cstr "nodes")) (fun s hs => ?_) ?_)
  · obtain ⟨placed, hplaced, rfl⟩ := List.mem_map.1 hs
    have hnodes := hfound (["JOBS", placed.1.id], ⟨"nodes", placed.2.map intStr⟩) (by
      rw [hjs]
      refine List.mem_flatMap.2 ⟨placed, hplaced, List.mem_map.2 ⟨_, ?_, rfl⟩⟩
      exact List.mem_append_right _ (List.mem_cons_of_mem _ List.mem_cons_self))
    have hjobs : openSection (emitSections out) (cstr "JOBS") =
        some (jobsSection (withNodes 0 js)).entries := openSection_emitted hsections hmem
    rw [lookupKey, hjobs] at hnodes
    simp only [lookupKey, jobsSection, CompiledSection.entries, CompiledSection.keys,
      CompiledSection.subsections, openSection_keys] at hnodes
    rw [show (jobSection placed).name = placed.1.id from rfl]
    cases hopen : openSection (emitSections ((withNodes 0 js).map jobSection))
        (cstr placed.1.id) with
    | none =>
      rw [hopen] at hnodes
      cases hnodes
    | some children =>
      rw [hopen] at hnodes
      refine ⟨children, rfl, ?_⟩
      rw [findKey_nodes]
      refine hnodes.trans (congrArg some ?_)
      rw [List.map_map]
      exact List.map_congr_left fun n _ => cstr_intStr n
  · refine List.pairwise_map.2 (hdisjoint.imp_of_mem fun {a b} ha _ hab heq => ?_)
    rw [findKey_nodes, findKey_nodes] at heq
    have hsame := List.map_injective_iff.2 intStr_injective (Option.some.inj heq)
    obtain ⟨hjob, c, hnodes⟩ := mem_withNodes ha
    obtain ⟨n, hn⟩ := List.exists_mem_of_ne_nil a.2 (by
      rw [hnodes]
      exact (hwf a.1 hjob).nodes_ne_nil c)
    exact hab n hn (hsame ▸ hn)

/-! ### Lookups -/

section

variable (h : Emitted lib cfg topology top out)
include h

theorem lookup_params (hc : NoCollision cfg topology)
    {k : CompiledKey} (hk : k ∈ (withSimulation cfg top.params).keys) :
    lookupKey (emitSections out) ["PARAMS"] k.name = some (k.values.map cstr) := by
  have hfound := lookupKey_section (h.distinct_iff.2 hc.workload) h.params_mem
    (h.params_unique hc) hk
  rwa [show (withSimulation cfg top.params).name = "PARAMS" from h.targets.params_name]
    at hfound

theorem lookup_workload (hc : NoCollision cfg topology)
    {p : List CStr × CompiledKey} (hp : p ∈ (written cfg topology).settings) :
    lookupKey (emitSections out) p.1 p.2.name = some (p.2.values.map cstr) := by
  have hsections := h.distinct_iff.2 hc.workload
  cases hwritten : written cfg topology with
  | nothing =>
    rw [hwritten] at hp
    exact absurd hp List.not_mem_nil
  | single wl =>
    rw [hwritten] at hp
    obtain ⟨k, hk, rfl⟩ := List.mem_map.1 hp
    have hmem : workloadSection wl ∈ out := h.workload_mem (by
      rw [hwritten]
      exact List.mem_cons_self)
    refine lookupKey_section hsections hmem (workloadSection_unique wl) ?_
    rw [workloadSection, CompiledSection.keys, workloadKeys_eq]
    exact hk
  | jobs js =>
    rw [hwritten] at hp
    obtain ⟨placed, hplaced, hp⟩ := List.mem_flatMap.1 hp
    obtain ⟨k, hk, rfl⟩ := List.mem_map.1 hp
    have hmem : jobsSection (withNodes 0 js) ∈ out := h.workload_mem (by
      rw [hwritten]
      exact List.mem_cons_self)
    have hkey : k ∈ (jobSection placed).keys := by
      rw [jobSection, CompiledSection.keys, workloadKeys_eq]
      exact hk
    exact lookupKey_subsection hsections hmem ((distinct_jobs_iff js).2 (hc.jobs js hwritten))
      (List.mem_map_of_mem hplaced) (jobSection_unique placed) hkey

theorem lookup_copied (hc : NoCollision cfg topology)
    (hs : s ∈ copiedSections cfg topology) {p : List CStr × CompiledKey}
    (hp : p ∈ s.settings) :
    lookupKey (emitSections out) p.1 p.2.name = some (p.2.values.map cstr) := by
  have hsections := h.distinct_iff.2 hc.workload
  have hunique := hc.copied s hs
  rcases List.mem_append.1 hs with hparams | hpassthrough
  · -- the settings of the simulation stand behind those of the section
    obtain rfl := h.targets.copied s hparams
    exact lookupKey_settings hunique hsections (h.params_unique hc).keys h.params_mem hp
  · have hkeys : ((s.keys ++ []).map fun k : CompiledKey => cstr k.name).Nodup := by
      rw [List.append_nil]
      exact hunique.uniqueKeys.keys
    have hmem : .mk s.name (s.keys ++ []) s.subsections ∈ out := by
      rw [List.append_nil, CompiledSection.mk_eta]
      exact h.passthrough_mem hpassthrough
    exact lookupKey_settings hunique hsections hkeys hmem hp

/-- **If no names collide, nothing is dropped.** -/
theorem nothingDropped_of_noCollision
    (hc : NoCollision cfg topology) : NothingDropped lib cfg topology out :=
  { keys := fun _ hs => h.out_unique hc hs
    sections := h.distinct_iff.2 hc.workload
    params := fun kv hkv => by
      obtain ⟨k, hk, hname, hvalues⟩ := h.targets.resolved kv hkv
      refine ⟨k.values, hvalues, ?_⟩
      rw [← hname]
      exact h.lookup_params hc (List.mem_append_left _ hk)
    simulation := fun kv hkv =>
      h.lookup_params hc (List.mem_append_right _ (List.mem_map_of_mem hkv))
    workload := fun _ hp => h.lookup_workload hc hp
    copied := fun s hs => ⟨hc.copied s hs, fun _ hp => h.lookup_copied hc hs hp⟩ }

/-- **If nothing is dropped, no names collide.** -/
theorem noCollision_of_nothingDropped
    (hd : NothingDropped lib cfg topology out) : NoCollision cfg topology :=
  { params := by
      rw [← h.params_names]
      exact (hd.keys _ h.params_mem).keys
    groups := h.targets.groups.1 (hd.keys _ h.lpgroups_mem)
    copied := fun s hs => (hd.copied s hs).1
    workload := h.distinct_iff.1 hd.sections
    jobs := fun js hjs => h.jobs_distinct hjs hd.sections hd.workload }

end

end Emitted

/-- **The compiler drops no setting exactly if no names collide**: those of the parameters, of the
groups, of the sections that are copied, of the workload's section, and of the jobs. -/
theorem nothingDropped_iff {lib : Library} {mainDoc : CStr} {baseDocs : List CStr}
    {cfg : FriendlyConfig} {topology : Topology} {out : List CompiledSection}
    (hmerge : mergeDocuments lib mainDoc baseDocs = .ok cfg)
      (htopology : cfg.topology = some topology)
    (hcompile : compile lib mainDoc baseDocs = .ok out) :
    NothingDropped lib cfg topology out ↔ NoCollision cfg topology := by
  rw [compile] at hcompile
  obtain ⟨cfg', hcfg', hcompile⟩ := bind_eq_ok hcompile
  obtain rfl := Except.ok.inj (hmerge.symm.trans hcfg')
  obtain ⟨top, hemitted⟩ := compileConfig_emitted (merged_mergeDocuments hmerge) htopology hcompile
  exact ⟨hemitted.noCollision_of_nothingDropped, hemitted.nothingDropped_of_noCollision⟩

/-! ### A host with a parameter of the fabric -/

/-- A torus, a parameter of which the component of its nodes sets as well. -/
def sampleDoc (hostParam : String) : CStr :=
  ("schema_version: 1\ncomponents:\n  host:\n    model: nw-lp\n    " ++ hostParam ++
    ": 1024\ntopology:\n  format: parametric\n  fabric:\n    model: torus\n    shape:\n" ++
    "      n_dims: 1\n      dim_length: 4\n    packet_size: 512\n  hosts:\n" ++
    "    component: host\n").toList

/-- The tree of `sampleDoc`. -/
def sampleTree (hostParam : String) : Yaml :=
  .map [("schema_version", .scalar "1"),
    ("components", .map [("host", .map [("model", .scalar "nw-lp"),
      (hostParam.toList, .scalar "1024")])]),
    ("topology", .map [("format", .scalar "parametric"),
      ("fabric", .map [("model", .scalar "torus"),
        ("shape", .map [("n_dims", .scalar "1"),
          ("dim_length", .scalar "4")]),
        ("packet_size", .scalar "512")]),
      ("hosts", .map [("component", .scalar "host")])])]

/-- A parser that knows the document, and whole numbers. -/
def sampleLibrary (hostParam : String) : Library where
  parse text := if text = sampleDoc hostParam then .ok (sampleTree hostParam) else reject []
  useAssert := false
  classifyValue text :=
    if text ≠ [] ∧ text.all Char.isDigit = true then .bareNumber (strtol text).1 else .plain
  formatNumber number := intStr number.num

/-- The topology of the document. -/
def sampleTopology : Topology :=
  .parametric
    { model := "torus"
      shape := [("n_dims", "1"), ("dim_length", "4")]
      links := []
      routing := []
      connections := []
      extra := [("packet_size", "512")]
      extraLists := []
      hostsComponent := "host" }

/-- What is merged of the document. -/
def sampleConfig (hostParam : String) : FriendlyConfig where
  components :=
    [⟨"host", "nw-lp", [], [(hostParam.toList, "1024")], none⟩]
  topology := some sampleTopology
  jobs := none
  passthrough := []
  simulation := []

/-- What the document is compiled to. -/
def sampleSections (hostParam : String) : List CompiledSection :=
  [.mk "LPGROUPS" [] [.mk "MODELNET_GRP"
      [⟨"repetitions", ["4"]⟩, ⟨"nw-lp", ["1"]⟩,
        ⟨"modelnet_torus", ["1"]⟩] []],
    .mk "PARAMS"
      [⟨"modelnet_order", ["torus"]⟩, ⟨"n_dims", ["1"]⟩,
        ⟨"dim_length", ["4"]⟩, ⟨"packet_size", ["512"]⟩,
        ⟨hostParam.toList, ["1024"]⟩] []]

theorem parseDocument_sample (hostParam : String) :
    parseDocument (sampleLibrary hostParam) (sampleDoc hostParam) = .ok (sampleTree hostParam) := by
  have hparse : (sampleLibrary hostParam).parse (sampleDoc hostParam) =
      .ok (sampleTree hostParam) := if_pos rfl
  rw [parseDocument, hparse]
  rfl

theorem sample_compiled {hostParam : String}
    (h : hostParam = "packet_size" ∨ hostParam = "message_size") :
    mergeDocuments (sampleLibrary hostParam) (sampleDoc hostParam) [] =
      .ok (sampleConfig hostParam) ∧
      compile (sampleLibrary hostParam) (sampleDoc hostParam) [] =
      .ok (sampleSections hostParam) := by
  have hmerge : mergeDocuments (sampleLibrary hostParam) (sampleDoc hostParam) [] =
      .ok (sampleConfig hostParam) := by
    rw [mergeDocuments, List.foldlM_nil, pure_bind, mergeMain, parseDocument_sample]
    rcases h with rfl | rfl
    · with_unfolding_all rfl
    · with_unfolding_all rfl
  refine ⟨hmerge, ?_⟩
  rw [compile, hmerge]
  rcases h with rfl | rfl
  · with_unfolding_all rfl
  · with_unfolding_all rfl

/-- The second size of a packet is never found. -/
theorem packetSize_dropped :
    mergeDocuments (sampleLibrary "packet_size") (sampleDoc "packet_size") [] =
        .ok (sampleConfig "packet_size") ∧
      compile (sampleLibrary "packet_size") (sampleDoc "packet_size") [] =
        .ok (sampleSections "packet_size") ∧
      ¬NothingDropped (sampleLibrary "packet_size") (sampleConfig "packet_size") sampleTopology
        (sampleSections "packet_size") := by
  obtain ⟨hmerge, hcompile⟩ := sample_compiled (.inl rfl)
  refine ⟨hmerge, hcompile, fun hd => ?_⟩
  obtain ⟨values, hvalues, hlookup⟩ := hd.params ("packet_size".toList, ["1024".toList])
    (List.mem_append_right _ List.mem_cons_self)
  have hresolved : ["1024".toList] = values := Except.ok.inj hvalues
  have hfirst : some ["512".toList] = some (values.map cstr) := hlookup
  rw [← hresolved] at hfirst
  exact absurd hfirst (by decide)

/-- With another parameter on the host nothing is dropped. -/
theorem messageSize_found :
    NothingDropped (sampleLibrary "message_size") (sampleConfig "message_size") sampleTopology
      (sampleSections "message_size") :=
  have h := sample_compiled (.inr rfl)
  (nothingDropped_iff h.1 rfl h.2).2
    { params := by decide
      groups := by
        rw [sampleTopology, UniqueGroups]
        decide
      copied := fun _ hs => absurd hs List.not_mem_nil
      workload := fun _ hname => absurd hname List.not_mem_nil
      jobs := fun _ hjs => nomatch hjs }

end CodesSim.Config
