import CodesSim.Config.Lookup
import CodesSim.Lib.Outcome

/-!
# Merged documents

What holds of the configuration that `mergeDocuments` returns, because every document that is merged
keeps it (`Merged.document`):

* pass-through sections have different names, and none of those the compiler gives;
* a job has a rank, and as many nodes as ranks if it lists them.
-/

namespace CodesSim.Config

open Outcome

/-- A job that was read. -/
structure Job.Wf (j : Job) : Prop where
  ranks_pos : 0 < j.ranks
  nodes_length : j.contiguous = false → (j.nodes.length : ℤ) = j.ranks

/-- A configuration that documents were merged into. -/
structure Merged (cfg : FriendlyConfig) : Prop where
  distinct : DistinctNames cfg.passthrough
  reserved : ∀ s ∈ cfg.passthrough,
    iequals s.name "LPGROUPS" = false ∧ iequals s.name "PARAMS" = false
  groups : ∀ lpgroups params, cfg.topology = some (.explicitGroups lpgroups params) →
    lpgroups.name = "LPGROUPS" ∧ params.name = "PARAMS"
  jobs : ∀ jobs, cfg.jobs = some jobs → ∀ j ∈ jobs, j.Wf

variable {lib : Library}

/-- A check in front of the rest of a function. -/
theorem guard_eq_ok {α : Type} {c : Prop} [Decidable c] {message : List CStr}
    {x : Except ConfigError α} {y : α} (h : (if c then reject message else x) = .ok y) :
    ¬c ∧ x = .ok y := by
  by_cases hc : c
  · rw [if_pos hc] at h
    cases h
  · rw [if_neg hc] at h
    exact ⟨hc, h⟩

/-! ### Sections -/

theorem CompiledSection.mk_eta (s : CompiledSection) : .mk s.name s.keys s.subsections = s := by
  cases s
  rfl

@[simp] theorem CompiledSection.addKey_keys (s : CompiledSection) (key : CStr)
    (values : List CStr) : (s.addKey key values).keys = s.keys ++ [⟨key, values⟩] := rfl

theorem buildMembers_name {members : List (CStr × Yaml)} {s s' : CompiledSection}
    (h : buildMembers lib members s = .ok s') : s'.name = s.name := by
  induction members generalizing s with
  | nil =>
    rw [buildMembers] at h
    cases h
    rfl
  | cons m members ih =>
    obtain ⟨k, node⟩ := m
    cases node with
    | scalar text =>
      rw [buildMembers] at h
      exact (ih h).trans rfl
    | seq items =>
      rw [buildMembers] at h
      obtain ⟨vals, -, hrest⟩ := bind_eq_ok h
      exact (ih hrest).trans rfl
    | map inner =>
      rw [buildMembers] at h
      obtain ⟨sub, -, hrest⟩ := bind_eq_ok h
      exact (ih hrest).trans rfl

theorem buildPassthroughSection_name {name : CStr} {node : Yaml} {s : CompiledSection}
    (h : buildPassthroughSection lib name node = .ok s) : s.name = name := by
  cases node with
  | scalar _ => cases h; rfl
  | seq _ => cases h; rfl
  | map members => exact buildMembers_name h

/-- What `addSection` keeps of the pass-through sections. -/
def SectionsOk (sections : List CompiledSection) : Prop :=
  DistinctNames sections ∧ ∀ s ∈ sections,
    iequals s.name "LPGROUPS" = false ∧ iequals s.name "PARAMS" = false

variable {sections sections' : List CompiledSection}

theorem addSection_ok {s : Option CStr × Yaml}
    (hok : SectionsOk sections) (h : addSection lib sections s = .ok sections') :
    SectionsOk sections' := by
  rw [addSection] at h
  obtain ⟨sec, hread, h⟩ := bind_eq_ok h
  obtain rfl := Except.ok.inj h
  rw [readSection] at hread
  obtain ⟨name, -, hread⟩ := bind_eq_ok hread
  obtain ⟨-, hread⟩ := guard_eq_ok hread
  obtain ⟨hreserved, hread⟩ := guard_eq_ok hread
  rw [not_or, Bool.not_eq_true, Bool.not_eq_true] at hreserved
  obtain ⟨sec, hsec, hread⟩ := bind_eq_ok hread
  obtain ⟨-, -, hread⟩ := bind_eq_ok hread
  obtain rfl := Except.ok.inj hread
  have hname := buildPassthroughSection_name hsec
  refine ⟨List.pairwise_append.2 ⟨hok.1.filter _, List.pairwise_singleton _ _, ?_⟩, ?_⟩
  · intro a ha b hb
    rw [List.mem_singleton.1 hb]
    simpa using (List.mem_filter.1 ha).2
  · intro e he
    rcases List.mem_append.1 he with hold | hnew
    · exact hok.2 e (List.mem_filter.1 hold).1
    · rw [List.mem_singleton.1 hnew, hname]
      exact hreserved

variable {root : Yaml}

theorem parseSections_ok
    (hok : SectionsOk sections) (h : parseSections lib root sections = .ok sections') :
    SectionsOk sections' := by
  unfold parseSections at h
  split at h
  · cases h; exact hok
  · obtain ⟨-, h⟩ := guard_eq_ok h
    exact foldlM_invariant SectionsOk (fun _ _ _ => addSection_ok) hok h

/-! ### Topologies -/

theorem addGroupSection_name {lpgroups lpgroups' : CompiledSection} {g : Option CStr × Yaml}
    (h : addGroupSection lib lpgroups g = .ok lpgroups') : lpgroups'.name = lpgroups.name := by
  rw [addGroupSection] at h
  obtain ⟨gname, -, h⟩ := bind_eq_ok h
  obtain ⟨-, h⟩ := guard_eq_ok h
  obtain ⟨-, -, h⟩ := bind_eq_ok h
  split at h
  · cases h
  · obtain ⟨_, -, h⟩ := bind_eq_ok h
    obtain ⟨_, -, h⟩ := bind_eq_ok h
    obtain ⟨-, h⟩ := guard_eq_ok h
    split at h
    · obtain ⟨_, -, h⟩ := bind_eq_ok h
      cases h
      rfl
    · cases h

theorem parseExplicitGroups_name {groups : Yaml} {lpgroups lpgroups' : CompiledSection}
    (h : parseExplicitGroups lib lpgroups groups = .ok lpgroups') :
    lpgroups'.name = lpgroups.name := by
  rw [parseExplicitGroups] at h
  obtain ⟨-, h⟩ := guard_eq_ok h
  exact foldlM_invariant (fun s => s.name = lpgroups.name)
    (fun _ _ _ hb hstep => (addGroupSection_name hstep).trans hb) rfl h

variable {lpgroups params : CompiledSection}

theorem parseGroups_names {topo : Yaml}
    {secs : CompiledSection × CompiledSection} (hparams : params.name = "PARAMS")
    (h : parseGroups lib topo lpgroups params = .ok secs) :
    secs.1.name = lpgroups.name ∧ secs.2.name = "PARAMS" := by
  rw [parseGroups] at h
  obtain ⟨-, -, h⟩ := bind_eq_ok h
  split at h
  · cases h
  · obtain ⟨groups, hgroups, h⟩ := bind_eq_ok h
    split at h
    · cases h
      exact ⟨parseExplicitGroups_name hgroups, hparams⟩
    · obtain ⟨-, h⟩ := guard_eq_ok h
      obtain ⟨sec, hsec, h⟩ := bind_eq_ok h
      cases h
      exact ⟨parseExplicitGroups_name hgroups, buildPassthroughSection_name hsec⟩

theorem parseTopology_names {topo : Yaml}
    (h : parseTopology lib topo = .ok (.explicitGroups lpgroups params)) :
    lpgroups.name = "LPGROUPS" ∧ params.name = "PARAMS" := by
  rw [parseTopology] at h
  obtain ⟨format, -, h⟩ := bind_eq_ok h
  split_ifs at h
  · obtain ⟨_, -, h⟩ := map_eq_ok h
    cases h
  · obtain ⟨_, -, h⟩ := map_eq_ok h
    cases h
  · obtain ⟨secs, hsecs, h⟩ := map_eq_ok h
    cases h
    exact parseGroups_names rfl hsecs
  · cases h
  · cases h

/-! ### Jobs -/

theorem finishJob_wf {jobs : List Job} {fields : JobFields} {j : Job}
    (h : finishJob jobs fields = .ok j) : j.Wf := by
  rw [finishJob] at h
  obtain ⟨-, h⟩ := guard_eq_ok h
  obtain ⟨-, h⟩ := guard_eq_ok h
  split at h
  · cases h
  · split at h
    · cases h
    · obtain ⟨hranks, h⟩ := guard_eq_ok h
      split at h
      · cases h
      · obtain ⟨hlength, h⟩ := guard_eq_ok h
        cases h
        have hpos := Int.not_le.1 hranks
        refine ⟨hpos, fun hcontiguous => ?_⟩
        by_contra hne
        exact hlength ⟨hcontiguous, hne⟩

theorem addJob_wf {jobs jobs' : List Job} {jnode : Option CStr × Yaml} (hjobs : ∀ j ∈ jobs, j.Wf)
    (h : addJob lib jobs jnode = .ok jobs') : ∀ j ∈ jobs', j.Wf := by
  rw [addJob] at h
  obtain ⟨-, h⟩ := guard_eq_ok h
  obtain ⟨fields, -, h⟩ := bind_eq_ok h
  obtain ⟨j, hj, h⟩ := bind_eq_ok h
  cases h
  intro k hk
  rcases List.mem_append.1 hk with hold | hnew
  · exact hjobs k hold
  · rw [List.mem_singleton.1 hnew]
    exact finishJob_wf hj

theorem parseJobs_wf {old new : Option (List Job)}
    (hold : ∀ jobs, old = some jobs → ∀ j ∈ jobs, j.Wf) (h : parseJobs lib root old = .ok new) :
    ∀ jobs, new = some jobs → ∀ j ∈ jobs, j.Wf := by
  rw [parseJobs] at h
  split at h
  · cases h
    exact hold
  · obtain ⟨-, h⟩ := guard_eq_ok h
    obtain ⟨jobs, hjobs, h⟩ := bind_eq_ok h
    cases h
    intro jobs' hjobs'
    obtain rfl := Option.some.inj hjobs'
    exact foldlM_invariant (fun js : List Job => ∀ j ∈ js, j.Wf) (fun _ _ _ => addJob_wf)
      (fun _ hj => absurd hj List.not_mem_nil) hjobs

/-! ### Documents -/

theorem mergeTopology_names {old new : Option Topology}
    (hold : ∀ lpgroups params, old = some (.explicitGroups lpgroups params) →
      lpgroups.name = "LPGROUPS" ∧ params.name = "PARAMS")
    (h : mergeTopology lib root old = .ok new)
    (heq : new = some (.explicitGroups lpgroups params)) :
    lpgroups.name = "LPGROUPS" ∧ params.name = "PARAMS" := by
  rw [mergeTopology] at h
  split at h
  · cases h
    exact hold lpgroups params heq
  · obtain ⟨t, ht, h⟩ := bind_eq_ok h
    cases h
    obtain rfl := Option.some.inj heq
    exact parseTopology_names ht

/-- **A document keeps what holds of the merged ones.** -/
theorem Merged.document {cfg cfg' : FriendlyConfig} (hm : Merged cfg)
    (h : mergeDocument lib cfg root = .ok cfg') : Merged cfg' := by
  rw [mergeDocument] at h
  obtain ⟨components, -, h⟩ := bind_eq_ok h
  obtain ⟨topology, htopology, h⟩ := bind_eq_ok h
  obtain ⟨passthrough, hpassthrough, h⟩ := bind_eq_ok h
  obtain ⟨simulation, -, h⟩ := bind_eq_ok h
  obtain ⟨jobs, hjobs, h⟩ := bind_eq_ok h
  cases h
  have hsections := parseSections_ok ⟨hm.distinct, hm.reserved⟩ hpassthrough
  exact
    { distinct := hsections.1
      reserved := hsections.2
      groups := fun _ _ heq => mergeTopology_names hm.groups htopology heq
      jobs := parseJobs_wf hm.jobs hjobs }

theorem Merged.base {cfg cfg' : FriendlyConfig} (hm : Merged cfg) {doc : CStr}
    (h : mergeBase lib cfg doc = .ok cfg') : Merged cfg' := by
  rw [mergeBase] at h
  obtain ⟨root, -, h⟩ := bind_eq_ok h
  obtain ⟨-, -, h⟩ := bind_eq_ok h
  obtain ⟨-, -, h⟩ := bind_eq_ok h
  exact hm.document h

/-- **Merged documents.** -/
theorem merged_mergeDocuments {mainDoc : CStr} {baseDocs : List CStr} {cfg : FriendlyConfig}
    (h : mergeDocuments lib mainDoc baseDocs = .ok cfg) : Merged cfg := by
  rw [mergeDocuments] at h
  obtain ⟨bases, hbases, h⟩ := bind_eq_ok h
  have hempty : Merged ⟨[], none, none, [], []⟩ :=
    { distinct := .nil
      reserved := fun _ hs => absurd hs List.not_mem_nil
      groups := fun _ _ heq => nomatch heq
      jobs := fun _ heq => nomatch heq }
  have hm := foldlM_invariant Merged (fun _ _ _ hb => hb.base) hempty hbases
  rw [mergeMain] at h
  obtain ⟨root, -, h⟩ := bind_eq_ok h
  obtain ⟨-, -, h⟩ := bind_eq_ok h
  obtain ⟨-, -, h⟩ := bind_eq_ok h
  exact hm.document h

end CodesSim.Config
