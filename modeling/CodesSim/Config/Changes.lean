import CodesSim.Config.Compile
import CodesSim.Lib.LastWins
import CodesSim.Lib.Outcome

/-!
# Documents as changes

What a document says does not depend on the documents before it.  So every document can be read on
its own (`readChanges`) and applied to what was merged (`mergeDocument_eq`), and the merged
configuration is made of the definitions of all documents, in order:

* of components and sections the last ones of a name are there (`merged_components`,
  `merged_passthrough`);
* of topologies and lists of jobs the last one (`merged_topology`, `merged_jobs`);
* of settings the last ones, in the order of the first ones (`merged_simulation_perm`).
-/

namespace CodesSim.Config

open LastWins Outcome

/-! ### Changes -/

/-- What a document defines. -/
structure Changes where
  components : List Component
  topology : Option Topology
  sections : List CompiledSection
  simulation : KvList
  jobs : Option (List Job)

/-- What counts of the name of a section. -/
def sectionKey (s : CompiledSection) : CStr := (cstr s.name).map Char.toLower

/-- A document is merged. -/
def FriendlyConfig.apply (cfg : FriendlyConfig) (ch : Changes) : FriendlyConfig where
  components := ch.components.foldl (put Component.key) cfg.components
  topology := ch.topology.or cfg.topology
  jobs := ch.jobs.or cfg.jobs
  passthrough := ch.sections.foldl (put sectionKey) cfg.passthrough
  simulation := ch.simulation.foldl (overwrite Prod.fst) cfg.simulation

/-- What documents in order are merged to. -/
def merged (chs : List Changes) : FriendlyConfig :=
  chs.foldl FriendlyConfig.apply ⟨[], none, none, [], []⟩

section Read

variable (lib : Library)

/-- The components of a document. -/
def readComponents (root : Yaml) : Except ConfigError (List Component) :=
  match root.find "components" with
  | none => .ok []
  | some comps =>
    if comps.isMap = false then
      reject ["\"components\" must be a map of name -> component"]
    else comps.children.mapM (readComponent lib)

/-- The sections of a document. -/
def readSections (root : Yaml) : Except ConfigError (List CompiledSection) :=
  match root.find "sections" with
  | none => .ok []
  | some secs =>
    if secs.isMap = false then
      reject ["\"sections\" must be a map of section-name -> keys"]
    else secs.children.mapM (readSection lib)

/-- The run-level settings of a document. -/
def readSimulation (root : Yaml) : Except ConfigError KvList :=
  match root.find "simulation" with
  | none => .ok []
  | some sim =>
    if sim.isMap = false then
      reject ["\"simulation\" must be a map of run-level settings (end_time, pe_mem_factor)"]
    else sim.children.mapM (readSetting lib)

/-- A document. -/
def readChanges (root : Yaml) : Except ConfigError Changes := do
  let components ← readComponents lib root
  let topology ← mergeTopology lib root none
  let sections ← readSections lib root
  let simulation ← readSimulation lib root
  let jobs ← parseJobs lib root none
  return ⟨components, topology, sections, simulation, jobs⟩

/-- An included document. -/
def baseChanges (doc : CStr) : Except ConfigError Changes := do
  let root ← parseDocument lib doc
  validateToplevelKeys lib root true
  validateSchemaVersionIfPresent lib root
  readChanges lib root

/-- The main document. -/
def mainChanges (doc : CStr) : Except ConfigError Changes := do
  let root ← parseDocument lib doc
  validateToplevelKeys lib root false
  requireSchemaVersion lib root
  readChanges lib root

/-- All documents, the included ones first. -/
def allChanges (mainDoc : CStr) (baseDocs : List CStr) : Except ConfigError (List Changes) := do
  let bases ← baseDocs.mapM (baseChanges lib)
  let main ← mainChanges lib mainDoc
  return bases ++ [main]

end Read

section

variable {lib : Library}

/-! ### Merging applies changes -/

theorem iequals_eq (s s' : CompiledSection) :
    iequals s.name s'.name = decide (sectionKey s = sectionKey s') := by
  rw [iequals, strcasecmp, sectionKey, sectionKey, beq_eq_decide]

theorem setSimulation_eq (simulation : KvList) (kv : CStr × CStr) :
    setSimulation simulation kv.1 kv.2 = overwrite Prod.fst simulation kv := by
  induction simulation with
  | nil => rfl
  | cons e simulation ih =>
    rw [setSimulation, overwrite, ih]

theorem addComponent_eq (cs : List Component) (cnode : Option CStr × Yaml) :
    addComponent lib cs cnode = (readComponent lib cnode).map (put Component.key cs) := by
  rw [addComponent]
  cases readComponent lib cnode with
  | error _ => rfl
  | ok c =>
    have hput : (cs.filter fun e => e.key != c.key) = cs.filter fun e => e.key ≠ c.key :=
      List.filter_congr fun e _ => by simp [bne, beq_eq_decide]
    exact congrArg (fun l => Except.ok (l ++ [c])) hput

theorem parseComponents_eq (root : Yaml) (cs : List Component) :
    parseComponents lib root cs =
      (readComponents lib root).map fun new => new.foldl (put Component.key) cs := by
  rw [parseComponents, readComponents]
  cases root.find "components" with
  | none => rfl
  | some comps =>
    dsimp only [reject]
    rw [map_guard, foldlM_eq_mapM addComponent_eq]

theorem addSection_eq (sections : List CompiledSection) (s : Option CStr × Yaml) :
    addSection lib sections s = (readSection lib s).map (put sectionKey sections) := by
  rw [addSection]
  cases readSection lib s with
  | error _ => rfl
  | ok sec =>
    have hput : (sections.filter fun e => !iequals e.name sec.name) =
        sections.filter fun e => sectionKey e ≠ sectionKey sec :=
      List.filter_congr fun e _ => by simp [iequals_eq]
    exact congrArg (fun l => Except.ok (l ++ [sec])) hput

theorem parseSections_eq (root : Yaml) (sections : List CompiledSection) :
    parseSections lib root sections =
      (readSections lib root).map fun new => new.foldl (put sectionKey) sections := by
  rw [parseSections, readSections]
  cases root.find "sections" with
  | none => rfl
  | some secs =>
    dsimp only [reject]
    rw [map_guard, foldlM_eq_mapM addSection_eq]

theorem simulationKey_eq (simulation : KvList) (c : Option CStr × Yaml) :
    simulationKey lib simulation c =
      (readSetting lib c).map (overwrite Prod.fst simulation) := by
  rw [simulationKey]
  cases readSetting lib c with
  | error _ => rfl
  | ok kv => exact congrArg Except.ok (setSimulation_eq simulation kv)

theorem parseSimulation_eq (root : Yaml) (simulation : KvList) :
    parseSimulation lib root simulation =
      (readSimulation lib root).map fun new => new.foldl (overwrite Prod.fst) simulation := by
  rw [parseSimulation, readSimulation]
  cases root.find "simulation" with
  | none => rfl
  | some sim =>
    dsimp only [reject]
    rw [map_guard, foldlM_eq_mapM simulationKey_eq]

theorem mergeTopology_eq (root : Yaml) (topology : Option Topology) :
    mergeTopology lib root topology = (mergeTopology lib root none).map (·.or topology) := by
  rw [mergeTopology, mergeTopology]
  cases root.find "topology" with
  | none => rfl
  | some topo =>
    rw [map_bind]
    rfl

theorem parseJobs_eq (root : Yaml) (jobs : Option (List Job)) :
    parseJobs lib root jobs = (parseJobs lib root none).map (·.or jobs) := by
  rw [parseJobs, parseJobs]
  cases root.find "jobs" with
  | none => rfl
  | some node =>
    dsimp only [reject]
    rw [map_guard, map_bind]
    rfl

/-- **To merge a document is to read it and apply it.** -/
theorem mergeDocument_eq (cfg : FriendlyConfig) (root : Yaml) :
    mergeDocument lib cfg root = (readChanges lib root).map cfg.apply := by
  rw [mergeDocument, readChanges, parseComponents_eq, mergeTopology_eq, parseSections_eq,
    parseSimulation_eq, parseJobs_eq]
  simp only [map_bind, bind_map]
  rfl

theorem mergeBase_eq (cfg : FriendlyConfig) (doc : CStr) :
    mergeBase lib cfg doc = (baseChanges lib doc).map cfg.apply := by
  rw [mergeBase, baseChanges]
  simp only [mergeDocument_eq, map_bind]

theorem mergeMain_eq (cfg : FriendlyConfig) (doc : CStr) :
    mergeMain lib cfg doc = (mainChanges lib doc).map cfg.apply := by
  rw [mergeMain, mainChanges]
  simp only [mergeDocument_eq, map_bind]

/-- **The documents are read, and then merged.** -/
theorem mergeDocuments_eq (mainDoc : CStr) (baseDocs : List CStr) :
    mergeDocuments lib mainDoc baseDocs = (allChanges lib mainDoc baseDocs).map merged := by
  rw [mergeDocuments, allChanges, foldlM_eq_mapM mergeBase_eq, bind_map, map_bind]
  refine bind_congr fun bases => ?_
  rw [mergeMain_eq, map_bind]
  cases mainChanges lib mainDoc with
  | error _ => rfl
  | ok main =>
    refine congrArg Except.ok ?_
    rw [merged, List.foldl_append]
    rfl

/-! ### What is merged -/

theorem merged_part {β : Type*} (f : FriendlyConfig → β) (g : β → Changes → β)
    (h : ∀ cfg ch, f (cfg.apply ch) = g (f cfg) ch) (chs : List Changes) :
    f (merged chs) = chs.foldl g (f ⟨[], none, none, [], []⟩) :=
  (List.foldl_hom f fun cfg ch => (h cfg ch).symm).symm

theorem merged_components (chs : List Changes) :
    (merged chs).components = lasts Component.key (chs.flatMap Changes.components) := by
  rw [merged_part FriendlyConfig.components
    (fun cs ch => ch.components.foldl (put Component.key) cs) fun _ _ => rfl, ← List.foldl_flatMap]
  exact foldl_put [] _

theorem merged_passthrough (chs : List Changes) :
    (merged chs).passthrough = lasts sectionKey (chs.flatMap Changes.sections) := by
  rw [merged_part FriendlyConfig.passthrough
    (fun secs ch => ch.sections.foldl (put sectionKey) secs) fun _ _ => rfl, ← List.foldl_flatMap]
  exact foldl_put [] _

theorem merged_simulation (chs : List Changes) :
    (merged chs).simulation = (chs.flatMap Changes.simulation).foldl (overwrite Prod.fst) [] := by
  rw [merged_part FriendlyConfig.simulation
    (fun kvs ch => ch.simulation.foldl (overwrite Prod.fst) kvs) fun _ _ => rfl,
    ← List.foldl_flatMap]

theorem merged_simulation_perm (chs : List Changes) :
    (merged chs).simulation.Perm (lasts Prod.fst (chs.flatMap Changes.simulation)) := by
  have hnil : (([] : KvList).map Prod.fst).Nodup := List.nodup_nil
  rw [merged_simulation]
  exact (foldl_overwrite_perm hnil (.refl []) _).trans (.of_eq (foldl_put [] _))

theorem merged_topology (chs : List Changes) :
    (merged chs).topology = (chs.filterMap Changes.topology).getLast? := by
  rw [merged_part FriendlyConfig.topology (fun t ch => ch.topology.or t) fun _ _ => rfl, foldl_or,
    Option.or_none]

theorem merged_jobs (chs : List Changes) :
    (merged chs).jobs = (chs.filterMap Changes.jobs).getLast? := by
  rw [merged_part FriendlyConfig.jobs (fun js ch => ch.jobs.or js) fun _ _ => rfl, foldl_or,
    Option.or_none]

end

end CodesSim.Config
