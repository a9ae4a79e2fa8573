import CodesSim.Config.Changes
import CodesSim.Config.Merged

/-!
# Documents with a workload in a component

A workload may be written in the component that a topology runs, or as a job.  `WrittenInline`
relates documents to those that have a workload in the last definition of a component and no jobs,
and `mapM_writtenInline` says what is read of the latter: the same, but for the workload and the
jobs.
-/

namespace CodesSim.Config

open Outcome

/-! ### Documents that were rewritten -/

/-- The first member of a key, and nothing else, is another one. -/
def AtFirst (key : CStr) (R : Yaml → Yaml → Prop) (members members' : List (CStr × Yaml)) : Prop :=
  ∃ before node node' behind, members = before ++ (key, node) :: behind ∧
    members' = before ++ (key, node') :: behind ∧ (∀ m ∈ before, m.1 ≠ key) ∧ R node node'

/-- The last member of a key, and nothing else, is another one. -/
def AtLast (key : CStr) (R : Yaml → Yaml → Prop) (members members' : List (CStr × Yaml)) : Prop :=
  ∃ before node node' behind, members = before ++ (key, node) :: behind ∧
    members' = before ++ (key, node') :: behind ∧ (∀ m ∈ behind, m.1 ≠ key) ∧ R node node'

/-- The workload `w` is written in a component, behind other ones. -/
def WithWorkload (w node node' : Yaml) : Prop :=
  ∃ before behind, node = .map (before ++ behind) ∧
    node' = .map (before ++ ("workload".toList, w) :: behind) ∧ ∀ m ∈ behind,
    m.1 ≠ "workload".toList

/-- The workload is written in the component `host` of a document. -/
def WithInline (host : CStr) (w : Yaml) : List (CStr × Yaml) → List (CStr × Yaml) → Prop :=
  AtFirst "components".toList fun comps comps' => ∃ cs cs', comps = .map cs ∧ comps' = .map cs' ∧
    AtLast host (WithWorkload w) cs cs'

/-- A document without its jobs. -/
def withoutJobs (members : List (CStr × Yaml)) : List (CStr × Yaml) :=
  members.filter fun m => m.1 ≠ "jobs".toList

/-- A document defines a component. -/
def Defines (host : CStr) (members : List (CStr × Yaml)) : Prop :=
  ∃ comps, (Yaml.map members).find "components".toList = some comps ∧
    ∃ c ∈ comps.children, c.1 = some host

/-- A document, and whether it is included. -/
structure Document where
  text : CStr
  isBase : Bool

/-- The documents, in the order in which they are merged. -/
def documents (mainDoc : CStr) (baseDocs : List CStr) : List Document :=
  (baseDocs.map fun doc => ⟨doc, true⟩) ++ [⟨mainDoc, false⟩]

/-- The members of two documents are related. -/
def Rewritten (lib : Library) (R : List (CStr × Yaml) → List (CStr × Yaml) → Prop)
    (d d' : Document) : Prop :=
  d'.isBase = d.isBase ∧ ∃ members members', lib.parse d.text = .ok (.map members) ∧
    lib.parse d'.text = .ok (.map members') ∧ R members members'

/-- The documents have no jobs, but in the last one that defines the component a workload. -/
inductive WrittenInline (lib : Library) (host : CStr) (w : Yaml) :
    List Document → List Document → Prop where
  | here {d d' : Document} {ds ds' : List Document}
      (hd : Rewritten lib (fun members members' =>
        ∃ inlined, WithInline host w members inlined ∧ members' = withoutJobs inlined) d d')
      (hds : List.Forall₂ (Rewritten lib fun members members' =>
        ¬Defines host members ∧ members' = withoutJobs members) ds ds') :
      WrittenInline lib host w (d :: ds) (d' :: ds')
  | behind {d d' : Document} {ds ds' : List Document}
      (hd : Rewritten lib (fun members members' => members' = withoutJobs members) d d')
      (hds : WrittenInline lib host w ds ds') : WrittenInline lib host w (d :: ds) (d' :: ds')

section

variable {lib : Library}

/-! ### Workloads do not depend on where they are written -/

theorem parseIntStrict_what {s what : CStr} (what' : CStr) {v : ℤ}
    (h : parseIntStrict s what = .ok v) : parseIntStrict s what' = .ok v := by
  rw [parseIntStrict] at h ⊢
  obtain ⟨hvalid, h⟩ := guard_eq_ok h
  rw [if_neg hvalid]
  exact h

theorem resolvePositive_what {kind : Quantity} {takes form what raw : CStr} (what' : CStr)
    {v : CStr}
    (h : resolvePositive lib kind takes form what raw = .ok v) :
    resolvePositive lib kind takes form what' raw = .ok v := by
  rw [resolvePositive] at h ⊢
  cases hvalue : lib.classifyValue raw with
  | plain =>
    rw [hvalue] at h
    cases h
  | bareNumber number =>
    simp only [hvalue] at h ⊢
    obtain ⟨hpos, h⟩ := guard_eq_ok h
    rw [if_neg hpos]
    exact h
  | withUnit kind' canonical =>
    simp only [hvalue] at h ⊢
    obtain ⟨hkind, h⟩ := guard_eq_ok h
    obtain ⟨hpos, h⟩ := guard_eq_ok h
    rw [if_neg hkind, if_neg hpos]
    exact h
  | unknownSuffix =>
    rw [hvalue] at h
    cases h

variable {owner : CStr}

theorem workloadKey_owner (owner' : CStr) {wl wl' : WorkloadBlock}
    {c : Option CStr × Yaml} (h : workloadKey lib owner wl c = .ok wl') :
    workloadKey lib owner' wl c = .ok wl' := by
  rw [workloadKey] at h ⊢
  obtain ⟨k, hk, h⟩ := bind_eq_ok h
  rw [hk]
  change (if _ then _ else _) = _
  split_ifs at h ⊢
  · exact h
  · obtain ⟨traffic, htraffic, h⟩ := bind_eq_ok h
    obtain ⟨hempty, h⟩ := guard_eq_ok h
    rw [htraffic]
    change (if _ then _ else _) = _
    rw [if_neg hempty]
    exact h
  · obtain ⟨text, htext, h⟩ := bind_eq_ok h
    obtain ⟨v, hv, h⟩ := bind_eq_ok h
    obtain ⟨hpos, h⟩ := guard_eq_ok h
    rw [htext]
    change (parseIntStrict text _ >>= _) = _
    rw [parseIntStrict_what _ hv]
    change (if _ then _ else _) = _
    rw [if_neg hpos]
    exact h
  · obtain ⟨text, htext, h⟩ := bind_eq_ok h
    obtain ⟨size, hsize, h⟩ := bind_eq_ok h
    rw [htext]
    change (resolveSizeBytes lib _ text >>= _) = _
    rw [resolveSizeBytes, resolvePositive_what _ hsize]
    exact h
  · obtain ⟨text, htext, h⟩ := bind_eq_ok h
    obtain ⟨time, htime, h⟩ := bind_eq_ok h
    rw [htext]
    change (resolveTimeNs lib _ text >>= _) = _
    rw [resolveTimeNs, resolvePositive_what _ htime]
    exact h
  · cases h

variable {wl : WorkloadBlock}

variable {w : Yaml}

theorem parseWorkload_owner (owner' : CStr)
    (h : parseWorkload lib w owner = .ok wl) : parseWorkload lib w owner' = .ok wl := by
  rw [parseWorkload] at h ⊢
  obtain ⟨hmap, h⟩ := guard_eq_ok h
  rw [if_neg hmap]
  cases hfind : w.find "type".toList with
  | none =>
    rw [hfind] at h
    cases h
  | some t =>
    simp only [hfind] at h ⊢
    obtain ⟨type, htype, h⟩ := bind_eq_ok h
    obtain ⟨hsynthetic, h⟩ := guard_eq_ok h
    rw [htype]
    change (if _ then _ else _) = _
    rw [if_neg hsynthetic]
    exact foldlM_mono (fun _ _ _ hstep => workloadKey_owner owner' hstep) h

/-! ### Components -/

variable {c : Component}

theorem componentField_key {c' : Component} {f : Option CStr × Yaml}
    (h : componentField lib c f = .ok c') : c'.key = c.key := by
  rw [componentField] at h
  obtain ⟨k, -, h⟩ := bind_eq_ok h
  split_ifs at h
  · obtain ⟨model, -, h⟩ := bind_eq_ok h
    cases h
    rfl
  · obtain ⟨network, -, h⟩ := bind_eq_ok h
    cases h
    rfl
  · cases h
  · obtain ⟨wl, -, h⟩ := bind_eq_ok h
    cases h
    rfl
  · obtain ⟨value, -, h⟩ := bind_eq_ok h
    cases h
    rfl
  · cases h

theorem readComponent_key {name : CStr} {node : Yaml}
    (h : readComponent lib (some name, node) = .ok c) : c.key = name :=
  foldlM_invariant (fun c => c.key = name)
    (fun _ _ _ hkey hstep => (componentField_key hstep).trans hkey)
    rfl h

theorem componentField_workload {c' : Component} {f : CStr × Yaml} (wl : Option WorkloadBlock)
    (hf : f.1 ≠ "workload".toList) (h : componentField lib c (some f.1, f.2) = .ok c') :
    componentField lib { c with workload := wl } (some f.1, f.2) =
      .ok { c' with workload := wl } := by
  rw [componentField, keyOf] at h ⊢
  change (if _ then _ else _) = _ at h
  change (if _ then _ else _) = _
  split_ifs at h ⊢
  · obtain ⟨model, hmodel, h⟩ := bind_eq_ok h
    cases h
    rw [hmodel]
    rfl
  · obtain ⟨network, hnetwork, h⟩ := bind_eq_ok h
    cases h
    rw [hnetwork]
    rfl
  · cases h
  · obtain ⟨value, hvalue, h⟩ := bind_eq_ok h
    cases h
    rw [hvalue]
    rfl
  · cases h

theorem componentFields_workload {c' : Component} {fields : List (CStr × Yaml)}
    (wl : Option WorkloadBlock) (hfields : ∀ f ∈ fields, f.1 ≠ "workload".toList)
    (h : (Yaml.map fields).children.foldlM (componentField lib) c = .ok c') :
    (Yaml.map fields).children.foldlM (componentField lib) { c with workload := wl } =
      .ok { c' with workload := wl } := by
  induction fields generalizing c with
  | nil =>
    cases h
    rfl
  | cons f fields ih =>
    rw [List.forall_mem_cons] at hfields
    rw [Yaml.children, List.map_cons, List.foldlM_cons] at h ⊢
    obtain ⟨mid, hmid, hrest⟩ := bind_eq_ok h
    rw [componentField_workload wl hfields.1 hmid]
    exact ih hfields.2 hrest

variable {host : CStr}

/-- **A component with a workload** is the component, with the workload. -/
theorem readComponent_withWorkload {node node' : Yaml} (hw : WithWorkload w node node')
    (hparse : parseWorkload lib w owner = .ok wl)
    (h : readComponent lib (some host, node) = .ok c) :
    readComponent lib (some host, node') = .ok { c with workload := some wl } := by
  obtain ⟨before, behind, rfl, rfl, hbehind⟩ := hw
  rw [readComponent, keyOf] at h ⊢
  change (Yaml.map (before ++ behind)).children.foldlM (componentField lib) _ = _ at h
  change (Yaml.map (before ++ ("workload".toList, w) :: behind)).children.foldlM
    (componentField lib) _ = _
  rw [Yaml.children, List.map_append, List.foldlM_append] at h ⊢
  obtain ⟨mid, hmid, hrest⟩ := bind_eq_ok h
  rw [hmid]
  have hfield : componentField lib mid (some "workload".toList, w) =
      .ok { mid with workload := some wl } := by
    rw [componentField, keyOf]
    change (parseWorkload lib w _ >>= _) = _
    rw [parseWorkload_owner _ hparse]
    rfl
  change ((("workload".toList, w) :: behind).map fun m => (some m.1, m.2)).foldlM
    (componentField lib) mid = _
  rw [List.map_cons, List.foldlM_cons, hfield]
  exact componentFields_workload (some wl) hbehind hrest

/-- A component of a list, and nothing else, gets a workload; no later one has its key. -/
def ComponentWith (host : CStr) (wl : WorkloadBlock) (cs cs' : List Component) : Prop :=
  ∃ before c behind, cs = before ++ c :: behind ∧
    cs' = before ++ { c with workload := some wl } :: behind ∧ c.key = host ∧
    ∀ e ∈ behind, e.key ≠ host

theorem children_map (members : List (CStr × Yaml)) :
    (Yaml.map members).children = members.map fun m => (some m.1, m.2) := rfl

theorem readComponents_map {members cs : List (CStr × Yaml)}
    (h : (Yaml.map members).find "components".toList = some (.map cs)) :
    readComponents lib (.map members) = (Yaml.map cs).children.mapM (readComponent lib) := by
  rw [readComponents, h]
  rfl

variable {members members' : List (CStr × Yaml)}

theorem find_atFirst {key : CStr} {R : Yaml → Yaml → Prop} (h : AtFirst key R members members') :
    ∃ node node', R node node' ∧ (Yaml.map members).find key = some node ∧
      (Yaml.map members').find key = some node' := by
  obtain ⟨before, node, node', behind, rfl, rfl, hbefore, hnode⟩ := h
  have hnone : (before.find? fun m => m.1 == key) = none :=
    List.find?_eq_none.2 fun m hm => by simpa using hbefore m hm
  refine ⟨node, node', hnode, ?_, ?_⟩
  · rw [Yaml.find, List.find?_append, hnone, Option.none_or, List.find?_cons_of_pos (by simp)]
    rfl
  · rw [Yaml.find, List.find?_append, hnone, Option.none_or, List.find?_cons_of_pos (by simp)]
    rfl

theorem find_atFirst_ne {key : CStr} {R : Yaml → Yaml → Prop}
    (h : AtFirst key R members members') {k : CStr} (hk : k ≠ key) :
    (Yaml.map members').find k = (Yaml.map members).find k := by
  obtain ⟨before, node, node', behind, rfl, rfl, -, -⟩ := h
  have hcons : ∀ node, ((key, node) :: behind).find? (fun m => m.1 == k) =
      behind.find? fun m => m.1 == k :=
    fun _ => List.find?_cons_of_neg (by simpa using hk.symm)
  rw [Yaml.find, Yaml.find, List.find?_append, List.find?_append, hcons, hcons]

theorem find_withoutJobs {k : CStr} (hk : k ≠ "jobs".toList) :
    (Yaml.map (withoutJobs members)).find k = (Yaml.map members).find k := by
  rw [Yaml.find, Yaml.find, withoutJobs, List.find?_filter]
  refine congrArg (fun p : CStr × Yaml → Bool => (members.find? p).map Prod.snd)
    (funext fun m => ?_)
  rw [Bool.eq_iff_iff, decide_eq_true_iff, and_iff_right_iff_imp, beq_iff_eq, decide_eq_true_iff]
  exact fun hm => hm ▸ hk

theorem find_withoutJobs_jobs (members : List (CStr × Yaml)) :
    (Yaml.map (withoutJobs members)).find "jobs".toList = none := by
  rw [Yaml.find, withoutJobs, List.find?_filter, Option.map_eq_none_iff, List.find?_eq_none]
  intro m _
  simp

theorem readComponents_withInline (hinline : WithInline host w members members')
    (hparse : parseWorkload lib w owner = .ok wl) {cs : List Component}
    (h : readComponents lib (.map members) = .ok cs) :
    ∃ cs', readComponents lib (.map members') = .ok cs' ∧ ComponentWith host wl cs cs' := by
  obtain ⟨_, _, ⟨comps, comps', rfl, rfl, hlast⟩, hfind, hfind'⟩ := find_atFirst hinline
  rw [readComponents_map hfind] at h
  rw [readComponents_map hfind']
  obtain ⟨before, node, node', behind, rfl, rfl, hbehind, hw⟩ := hlast
  rw [children_map, List.map_append, List.map_cons] at h ⊢
  obtain ⟨above, c, below, habove, hc, hbelow, rfl⟩ := mapM_split_eq_ok.1 h
  refine ⟨above ++ { c with workload := some wl } :: below,
    mapM_split_eq_ok.2 ⟨above, _, below, habove, readComponent_withWorkload hw hparse hc,
      hbelow, rfl⟩,
    above, c, below, rfl, rfl, readComponent_key hc, fun e he => ?_⟩
  obtain ⟨m, hm, hread⟩ := mem_of_mapM hbelow e he
  obtain ⟨m, hmem, rfl⟩ := List.mem_map.1 hm
  rw [readComponent_key hread]
  exact hbehind m hmem

/-! ### Documents -/

/-- An included document need not have a version. -/
def checkSchemaVersion (lib : Library) (isBase : Bool) (root : Yaml) : Except ConfigError Unit :=
  if isBase = true then validateSchemaVersionIfPresent lib root else requireSchemaVersion lib root

/-- What is read of a document after its checks. -/
def checkedChanges (lib : Library) (isBase : Bool) (root : Yaml) : Except ConfigError Changes := do
  validateToplevelKeys lib root isBase
  checkSchemaVersion lib isBase root
  readChanges lib root

/-- What is read of a document. -/
def readDocument (lib : Library) (d : Document) : Except ConfigError Changes := do
  let root ← parseDocument lib d.text
  checkedChanges lib d.isBase root

theorem allChanges_documents (mainDoc : CStr) (baseDocs : List CStr) :
    allChanges lib mainDoc baseDocs = (documents mainDoc baseDocs).mapM (readDocument lib) := by
  rw [allChanges, documents, List.mapM_append, List.mapM_map, List.mapM_cons, List.mapM_nil]
  have hbase : readDocument lib ∘ (fun doc => (⟨doc, true⟩ : Document)) = baseChanges lib := rfl
  have hmain : readDocument lib ⟨mainDoc, false⟩ = mainChanges lib mainDoc := rfl
  rw [hbase, hmain]
  refine bind_congr fun bases => ?_
  cases mainChanges lib mainDoc with
  | error _ => rfl
  | ok main => rfl

variable {isBase : Bool}

theorem validateToplevelKeys_subset (hkeys : ∀ m ∈ members', ∃ n ∈ members, n.1 = m.1)
    (h : validateToplevelKeys lib (.map members) isBase = .ok ()) :
    validateToplevelKeys lib (.map members') isBase = .ok () := by
  rw [validateToplevelKeys, children_map, forM_eq_ok] at h ⊢
  intro c hc
  obtain ⟨m, hm, rfl⟩ := List.mem_map.1 hc
  obtain ⟨n, hn, hkey⟩ := hkeys m hm
  have hvalid := h (some n.1, n.2) (List.mem_map_of_mem hn)
  rw [hkey] at hvalid
  exact hvalid

theorem checkSchemaVersion_congr {root root' : Yaml}
    (h : root'.find "schema_version".toList = root.find "schema_version".toList) :
    checkSchemaVersion lib isBase root' = checkSchemaVersion lib isBase root := by
  have hrequire : requireSchemaVersion lib root' = requireSchemaVersion lib root := by
    rw [requireSchemaVersion, requireSchemaVersion, h]
  rw [checkSchemaVersion, checkSchemaVersion, validateSchemaVersionIfPresent,
    validateSchemaVersionIfPresent, h, hrequire]

variable {ch : Changes}

/-- **What is read of a document that was rewritten**: other components, and no jobs. -/
theorem checkedChanges_rewritten
    {cs : List Component} (hkeys : ∀ m ∈ members', ∃ n ∈ members, n.1 = m.1)
    (hfind : ∀ k, k ≠ "components".toList → k ≠ "jobs".toList →
      (Yaml.map members').find k = (Yaml.map members).find k)
    (hjobs : (Yaml.map members').find "jobs".toList = none)
    (hcs : readComponents lib (.map members') = .ok cs)
    (h : checkedChanges lib isBase (.map members) = .ok ch) :
    checkedChanges lib isBase (.map members') = .ok { ch with components := cs, jobs := none } := by
  rw [checkedChanges] at h ⊢
  obtain ⟨⟨⟩, hvalid, h⟩ := bind_eq_ok h
  obtain ⟨⟨⟩, hschema, h⟩ := bind_eq_ok h
  rw [readChanges] at h
  obtain ⟨components, -, h⟩ := bind_eq_ok h
  obtain ⟨topology, htopology, h⟩ := bind_eq_ok h
  obtain ⟨sections, hsections, h⟩ := bind_eq_ok h
  obtain ⟨simulation, hsimulation, h⟩ := bind_eq_ok h
  obtain ⟨jobs, -, h⟩ := bind_eq_ok h
  cases h
  rw [validateToplevelKeys_subset hkeys hvalid,
    checkSchemaVersion_congr (hfind "schema_version".toList (by decide) (by decide)), hschema]
  rw [mergeTopology, ← hfind "topology".toList (by decide) (by decide)] at htopology
  rw [readSections, ← hfind "sections".toList (by decide) (by decide)] at hsections
  rw [readSimulation, ← hfind "simulation".toList (by decide) (by decide)] at hsimulation
  change readChanges lib (.map members') = _
  rw [readChanges, hcs, mergeTopology, htopology, readSections, hsections, readSimulation,
    hsimulation, parseJobs, hjobs]
  rfl

theorem parseDocument_map {text : CStr}
    (h : lib.parse text = .ok (.map members)) : parseDocument lib text = .ok (.map members) := by
  rw [parseDocument, h]
  rfl

theorem checkedChanges_components {root : Yaml}
    (h : checkedChanges lib isBase root = .ok ch) :
    readComponents lib root = .ok ch.components := by
  rw [checkedChanges] at h
  obtain ⟨-, -, h⟩ := bind_eq_ok h
  obtain ⟨-, -, h⟩ := bind_eq_ok h
  rw [readChanges] at h
  obtain ⟨components, hcomponents, h⟩ := bind_eq_ok h
  obtain ⟨topology, -, h⟩ := bind_eq_ok h
  obtain ⟨sections, -, h⟩ := bind_eq_ok h
  obtain ⟨simulation, -, h⟩ := bind_eq_ok h
  obtain ⟨jobs, -, h⟩ := bind_eq_ok h
  cases h
  exact hcomponents

/-- What a document defines, except for jobs. -/
def Changes.withoutJobs (ch : Changes) : Changes := { ch with jobs := none }

theorem Rewritten.intro {R : List (CStr × Yaml) → List (CStr × Yaml) → Prop} {text text' : CStr}
    (h : lib.parse text = .ok (.map members))
    (h' : lib.parse text' = .ok (.map members')) (hR : R members members') :
    Rewritten lib R ⟨text, isBase⟩ ⟨text', isBase⟩ := ⟨rfl, members, members', h, h', hR⟩

theorem readDocument_withoutJobs {d d' : Document}
    (hd : Rewritten lib (fun members members' => members' = withoutJobs members) d d')
    (h : readDocument lib d = .ok ch) : readDocument lib d' = .ok ch.withoutJobs := by
  obtain ⟨hbase, members, _, hparse, hparse', rfl⟩ := hd
  rw [readDocument, parseDocument_map hparse] at h
  rw [readDocument, parseDocument_map hparse', hbase]
  change checkedChanges lib d.isBase (.map members) = .ok ch at h
  refine checkedChanges_rewritten (fun m hm => ⟨m, (List.mem_filter.1 hm).1, rfl⟩)
    (fun k _ hk => find_withoutJobs hk) (find_withoutJobs_jobs members) ?_ h
  rw [readComponents, find_withoutJobs (by decide)]
  exact checkedChanges_components h

theorem readDocument_withInline {d d' : Document} (hparsed : parseWorkload lib w owner = .ok wl)
    (hd : Rewritten lib (fun members members' =>
      ∃ inlined, WithInline host w members inlined ∧ members' = withoutJobs inlined) d d')
    (h : readDocument lib d = .ok ch) : ∃ cs, ComponentWith host wl ch.components cs ∧
      readDocument lib d' = .ok { ch with components := cs, jobs := none } := by
  obtain ⟨hbase, members, _, hparse, hparse', inlined, hinline, rfl⟩ := hd
  rw [readDocument, parseDocument_map hparse] at h
  rw [readDocument, parseDocument_map hparse', hbase]
  change checkedChanges lib d.isBase (.map members) = .ok ch at h
  obtain ⟨cs, hcs, hwith⟩ :=
    readComponents_withInline hinline hparsed (checkedChanges_components h)
  refine ⟨cs, hwith, checkedChanges_rewritten (fun m hm => ?_) (fun k hcomponents hjobs => ?_)
    (find_withoutJobs_jobs inlined) ?_ h⟩
  · -- the keys are those of the document
    obtain ⟨before, node, node', behind, rfl, rfl, -, -⟩ := hinline
    rcases List.mem_append.1 (List.mem_filter.1 hm).1 with hmem | hmem
    · exact ⟨m, List.mem_append_left _ hmem, rfl⟩
    · rcases List.mem_cons.1 hmem with rfl | hmem
      · exact ⟨_, List.mem_append_right _ List.mem_cons_self, rfl⟩
      · exact ⟨m, List.mem_append_right _ (List.mem_cons_of_mem _ hmem), rfl⟩
  · rw [find_withoutJobs hjobs, find_atFirst_ne hinline hcomponents]
  · rw [readComponents, find_withoutJobs (by decide)]
    exact hcs

theorem readDocument_components {d : Document}
    (hparse : lib.parse d.text = .ok (.map members)) (hdefines : ¬Defines host members)
    (h : readDocument lib d = .ok ch) : ∀ c ∈ ch.components, c.key ≠ host := by
  rw [readDocument, parseDocument_map hparse] at h
  have hread := checkedChanges_components
    (show checkedChanges lib d.isBase (.map members) = .ok ch from h)
  rw [readComponents] at hread
  cases hfind : (Yaml.map members).find "components".toList with
  | none =>
    rw [hfind] at hread
    rw [← Except.ok.inj hread]
    exact fun c hc => absurd hc List.not_mem_nil
  | some comps =>
    simp only [hfind] at hread
    obtain ⟨hmap, hread⟩ := guard_eq_ok hread
    intro c hc
    obtain ⟨cnode, hmem, hcomponent⟩ := mem_of_mapM hread c hc
    cases comps with
    | scalar _ => exact absurd rfl hmap
    | seq _ => exact absurd rfl hmap
    | map cs =>
      obtain ⟨m, hm, rfl⟩ := List.mem_map.1 hmem
      rw [readComponent_key hcomponent]
      rintro rfl
      exact hdefines ⟨_, hfind, _, hmem, rfl⟩

/-! ### All documents -/

/-- What documents define, and what they define if the workload is in the last definition of the
component and the jobs are left out. -/
def InlinedChanges (host : CStr) (wl : WorkloadBlock) (chs chs' : List Changes) : Prop :=
  ∃ before ch behind cs, ComponentWith host wl ch.components cs ∧ chs = before ++ ch :: behind ∧
    chs' = before.map Changes.withoutJobs ++
      { ch with components := cs, jobs := none } :: behind.map Changes.withoutJobs ∧
    ∀ e ∈ behind, ∀ c ∈ e.components, c.key ≠ host

theorem mapM_withoutJobs {ds ds' : List Document} {chs : List Changes}
    (hds : List.Forall₂ (Rewritten lib fun members members' =>
      ¬Defines host members ∧ members' = withoutJobs members) ds ds')
    (h : ds.mapM (readDocument lib) = .ok chs) :
    ds'.mapM (readDocument lib) = .ok (chs.map Changes.withoutJobs) ∧
      ∀ e ∈ chs, ∀ c ∈ e.components, c.key ≠ host := by
  induction hds generalizing chs with
  | nil =>
    cases h
    exact ⟨rfl, fun _ he => absurd he List.not_mem_nil⟩
  | cons hd _ ih =>
    rw [List.mapM_cons] at h ⊢
    obtain ⟨ch, hch, h⟩ := bind_eq_ok h
    obtain ⟨rest, hrest, h⟩ := bind_eq_ok h
    cases h
    obtain ⟨hbase, members, members', hparse, hparse', hdefines, hmembers⟩ := hd
    obtain ⟨hmap, hkeys⟩ := ih hrest
    rw [readDocument_withoutJobs ⟨hbase, members, members', hparse, hparse', hmembers⟩ hch, hmap]
    exact ⟨rfl, List.forall_mem_cons.2 ⟨readDocument_components hparse hdefines hch, hkeys⟩⟩

theorem mapM_writtenInline {ds ds' : List Document} (hparsed : parseWorkload lib w owner = .ok wl)
    (hds : WrittenInline lib host w ds ds') {chs : List Changes}
    (h : ds.mapM (readDocument lib) = .ok chs) :
    ∃ chs', ds'.mapM (readDocument lib) = .ok chs' ∧ InlinedChanges host wl chs chs' := by
  induction hds generalizing chs with
  | here hd hds =>
    rw [List.mapM_cons] at h
    obtain ⟨ch, hch, h⟩ := bind_eq_ok h
    obtain ⟨rest, hrest, h⟩ := bind_eq_ok h
    cases h
    obtain ⟨cs, hcs, hread⟩ := readDocument_withInline hparsed hd hch
    obtain ⟨hmap, hkeys⟩ := mapM_withoutJobs hds hrest
    refine ⟨_, ?_, [], ch, rest, cs, hcs, rfl, rfl, hkeys⟩
    rw [List.mapM_cons, hread, hmap]
    rfl
  | behind hd _ ih =>
    rw [List.mapM_cons] at h
    obtain ⟨ch, hch, h⟩ := bind_eq_ok h
    obtain ⟨rest, hrest, h⟩ := bind_eq_ok h
    cases h
    obtain ⟨_, hread, before, c, behind, cs, hcs, rfl, rfl, hkeys⟩ := ih hrest
    refine ⟨_, ?_, ch :: before, c, behind, cs, hcs, rfl, rfl, hkeys⟩
    rw [List.mapM_cons, readDocument_withoutJobs hd hch, hread]
    rfl

end

end CodesSim.Config
