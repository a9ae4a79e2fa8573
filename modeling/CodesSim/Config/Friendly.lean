import CodesSim.Config.Yaml

/-!
# The friendly format

The first half of `config_compiler.cxx`: documents become a `FriendlyConfig`, one after the other.

* Components and pass-through sections of a later document replace those of their name, as a
  topology, a list of jobs or a simulation setting replaces the earlier one.
* `mergeDocuments` merges the included documents and the main document.
-/

namespace CodesSim.Config

/-! ### Sections -/

/-- A key and its values (`compiled_key`). -/
structure CompiledKey where
  name : CStr
  values : List CStr
  deriving DecidableEq

/-- A section with its keys and subsections (`compiled_section`). -/
inductive CompiledSection where
  | mk (name : CStr) (keys : List CompiledKey) (subsections : List CompiledSection)

namespace CompiledSection

def name : CompiledSection → CStr
  | mk name _ _ => name

def keys : CompiledSection → List CompiledKey
  | mk _ keys _ => keys

def subsections : CompiledSection → List CompiledSection
  | mk _ _ subsections => subsections

/-- `add_key`. -/
def addKey (s : CompiledSection) (key : CStr) (values : List CStr) : CompiledSection :=
  mk s.name (s.keys ++ [⟨key, values⟩]) s.subsections

/-- `add_subsection`. -/
def addSubsection (s sub : CompiledSection) : CompiledSection :=
  mk s.name s.keys (s.subsections ++ [sub])

end CompiledSection

/-! ### The intermediate representation -/

/-- `kv_list`. -/
abbrev KvList := List (CStr × CStr)

/-- `workload_block`; what is not set is `none`. -/
structure WorkloadBlock where
  type : CStr
  (traffic numMessages payloadSize arrivalTime : Option CStr)

/-- `component`. -/
structure Component where
  (key model network : CStr)
  params : KvList
  workload : Option WorkloadBlock

/-- `link_class`. -/
structure LinkClass where
  name : CStr
  params : KvList

/-- `fabric`. -/
structure Fabric where
  model : CStr
  shape : KvList
  links : List LinkClass
  (routing connections extra : KvList)
  extraLists : List (CStr × List CStr)
  hostsComponent : CStr

/-- A fabric that nothing is known about. -/
def Fabric.empty : Fabric := ⟨[], [], [], [], [], [], [], []⟩

/-- `job`; `nodes` is empty for a contiguous one. -/
structure Job where
  id : CStr
  wl : WorkloadBlock
  ranks : ℤ
  contiguous : Bool
  nodes : List ℤ

/-- The topology of one of the three formats. -/
inductive Topology where
  | parametric (fab : Fabric)
  | flat (flatComponent : CStr) (nodeCount : ℤ)
  | explicitGroups (lpgroups params : CompiledSection)

/-- `friendly_config`. -/
structure FriendlyConfig where
  components : List Component
  topology : Option Topology
  jobs : Option (List Job)
  passthrough : List CompiledSection
  simulation : KvList

/-- `set_simulation`. -/
def setSimulation (simulation : KvList) (name value : CStr) : KvList :=
  match simulation with
  | [] => [(name, value)]
  | kv :: kvs => if kv.1 = name then (name, value) :: kvs else kv :: setSimulation kvs name value

/-- `find_component`. -/
def FriendlyConfig.findComponent (cfg : FriendlyConfig) (key : CStr) : Option Component :=
  cfg.components.find? fun c => c.key == key

section Parse

variable (lib : Library)

/-! ### Quantities of a setting -/

/-- A positive quantity in the unit the models read: a bare number is one, a value with a unit is
converted.  `takes` and `form` are texts of messages. -/
def resolvePositive (kind : Quantity) (takes form what raw : CStr) : Except ConfigError CStr :=
  match lib.classifyValue raw with
  | .bareNumber number =>
    if number ≤ 0 then reject [what, " must be positive, got ", quoted raw] else .ok raw
  | .withUnit kind' canonical =>
    if kind' ≠ kind then
      reject [what, takes, quoted raw, " is a ", kind'.name, " value"]
    else if canonical ≤ 0 then reject [what, " must be positive, got ", quoted raw]
    else .ok (lib.formatNumber canonical)
  | .plain => reject [what, form, quoted raw]
  | .unknownSuffix => reject [what, form, quoted raw]

/-- `resolve_time_ns`. -/
def resolveTimeNs (what raw : CStr) : Except ConfigError CStr :=
  resolvePositive lib .time " takes a time value, but "
    (" must be a time value: a bare number of nanoseconds or a value with a " ++
      "time unit (ns/us/ms/s), got ")
    what raw

/-- `resolve_size_bytes`. -/
def resolveSizeBytes (what raw : CStr) : Except ConfigError CStr :=
  resolvePositive lib .size " takes a size value, but "
    (" must be a size value: a bare number of bytes or a value with a size " ++
      "unit (B/KiB/MiB/GiB), got ")
    what raw

/-! ### Workloads -/

/-- A key of a `workload:` map. -/
def workloadKey (owner : CStr) (wl : WorkloadBlock) (c : Option CStr × Yaml) :
    Except ConfigError WorkloadBlock := do
  let k ← keyOf lib c.1
  if k = "type" then return wl
  else if k = "traffic" then
    let traffic ← scalar lib c.2
    if traffic = [] then
      reject [owner, ": workload.traffic must be a non-empty pattern name"]
    else return { wl with traffic := some traffic }
  else if k = "num_messages" then
    let text ← scalar lib c.2
    let v ← parseIntStrict text (owner ++ " workload.num_messages")
    if v ≤ 0 then
      reject [owner, ": workload.num_messages must be a positive integer, got ", quoted text]
    else return { wl with numMessages := some (intStr v) }
  else if k = "payload_size" then
    let text ← scalar lib c.2
    let size ← resolveSizeBytes lib (owner ++ " workload.payload_size") text
    return { wl with payloadSize := some size }
  else if k = "arrival_time" then
    let text ← scalar lib c.2
    let time ← resolveTimeNs lib (owner ++ " workload.arrival_time") text
    return { wl with arrivalTime := some time }
  else
    reject [owner, ": workload: unexpected key ", quoted k,
      " (supported: type, traffic, num_messages, payload_size, arrival_time)"]

/-- `parse_workload`. -/
def parseWorkload (node : Yaml) (owner : CStr) : Except ConfigError WorkloadBlock :=
  if node.isMap = false then
    reject [owner, ": \"workload\" must be a map (type, and type-specific settings)"]
  else
    match node.find "type" with
    | none => reject [owner, ": workload needs a \"type\" (synthetic)"]
    | some t => do
      let type ← scalar lib t
      if type ≠ "synthetic" then
        reject [owner, ": workload type ", quoted type,
          " is not yet configurable from this format; only \"synthetic\" is wired ",
          "-- use the legacy .conf path for other workload types"]
      else node.children.foldlM (workloadKey lib owner) ⟨type, none, none, none, none⟩

/-! ### Components -/

/-- A field of a component. -/
def componentField (c : Component) (f : Option CStr × Yaml) : Except ConfigError Component := do
  let k ← keyOf lib f.1
  if k = "model" then return { c with model := ← scalar lib f.2 }
  else if k = "network" then return { c with network := ← scalar lib f.2 }
  else if k = "type" then
    reject ["component ", quoted c.key,
      ": key \"type\" is reserved for a future schema version and is not ",
      "accepted yet; remove it (the model is inferred from \"model:\")"]
  else if k = "workload" then
    return { c with workload := ← parseWorkload lib f.2 ("component " ++ quoted c.key) }
  else if isKeyval f = true then return { c with params := c.params ++ [(k, ← scalar lib f.2)] }
  else
    reject ["component ", quoted c.key, ": unexpected block ", quoted k,
      "; a component takes a model, an optional network, scalar params, and an ",
      "optional inline workload (per-node data and edges are not supported)"]

/-- A component that a document defines. -/
def readComponent (cnode : Option CStr × Yaml) : Except ConfigError Component := do
  let key ← keyOf lib cnode.1
  cnode.2.children.foldlM (componentField lib) ⟨key, [], [], [], none⟩

/-- A component replaces the one of its key. -/
def addComponent (cs : List Component) (cnode : Option CStr × Yaml) :
    Except ConfigError (List Component) := do
  let c ← readComponent lib cnode
  return (cs.filter fun e => e.key != c.key) ++ [c]

/-- `parse_components`. -/
def parseComponents (root : Yaml) (cs : List Component) : Except ConfigError (List Component) :=
  match root.find "components" with
  | none => .ok cs
  | some comps =>
    if comps.isMap = false then
      reject ["\"components\" must be a map of name -> component"]
    else comps.children.foldlM (addComponent lib) cs

/-! ### Pass-through sections -/

/-- `build_passthrough_section`, on the members of a map. -/
def buildMembers : List (CStr × Yaml) → CompiledSection → Except ConfigError CompiledSection
  | [], sec => .ok sec
  | (k, .seq items) :: members, sec => do
    let vals ← items.mapM (scalar lib)
    buildMembers members (sec.addKey k vals)
  | (k, .map inner) :: members, sec => do
    let sub ← buildMembers inner (.mk k [] [])
    buildMembers members (sec.addSubsection sub)
  | (k, .scalar text) :: members, sec => buildMembers members (sec.addKey k [text])

/-- `build_passthrough_section`; the callers have checked for a map. -/
def buildPassthroughSection (name : CStr) : Yaml → Except ConfigError CompiledSection
  | .map members => buildMembers lib members (.mk name [] [])
  | _ => .ok (.mk name [] [])

/-- `iequals`. -/
def iequals (a b : CStr) : Bool := strcasecmp (cstr a) (cstr b)

/-- `validate_section_schema`: a `resource` section needs the key the resource LP reads. -/
def validateSectionSchema (sec : CompiledSection) : Except ConfigError Unit :=
  if iequals sec.name "resource" = true ∧
      (sec.keys.any fun k => k.name == "available") = false then
    reject ["section ", quoted sec.name, " is missing required key ",
      quoted "available"]
  else .ok ()

/-- A section that a document passes through. -/
def readSection (s : Option CStr × Yaml) : Except ConfigError CompiledSection := do
  let name ← keyOf lib s.1
  if s.2.isMap = false then
    reject ["sections: ", quoted name, " must be a block of keys"]
  else if iequals name "LPGROUPS" = true ∨ iequals name "PARAMS" = true then
    reject ["sections: ", quoted name,
      " is reserved -- the compiler emits it from the topology; put model ",
      "parameters on the component or fabric instead"]
  else
    let sec ← buildPassthroughSection lib name s.2
    validateSectionSchema sec
    return sec

/-- A section replaces the one of its name. -/
def addSection (passthrough : List CompiledSection) (s : Option CStr × Yaml) :
    Except ConfigError (List CompiledSection) := do
  let sec ← readSection lib s
  return (passthrough.filter fun e => !iequals e.name sec.name) ++ [sec]

/-- `parse_sections`. -/
def parseSections (root : Yaml) (passthrough : List CompiledSection) :
    Except ConfigError (List CompiledSection) :=
  match root.find "sections" with
  | none => .ok passthrough
  | some secs =>
    if secs.isMap = false then
      reject ["\"sections\" must be a map of section-name -> keys"]
    else secs.children.foldlM (addSection lib) passthrough

/-! ### Topologies -/

/-- A block of scalars. -/
def kvList (node : Yaml) : Except ConfigError KvList :=
  node.children.mapM fun c => do return (← keyOf lib c.1, ← scalar lib c.2)

/-- A key of the `fabric:` block. -/
def fabricKey (fab : Fabric) (c : Option CStr × Yaml) : Except ConfigError Fabric := do
  let k ← keyOf lib c.1
  if k = "model" then return { fab with model := ← scalar lib c.2 }
  else if k = "shape" then return { fab with shape := fab.shape ++ (← kvList lib c.2) }
  else if k = "links" then
    let links ← c.2.children.mapM fun lc => do
      return LinkClass.mk (← keyOf lib lc.1) (← kvList lib lc.2)
    return { fab with links := fab.links ++ links }
  else if k = "routing" then return { fab with routing := fab.routing ++ (← kvList lib c.2) }
  else if k = "connections" then
    return { fab with connections := fab.connections ++ (← kvList lib c.2) }
  else if c.2.isSeq = true then
    let vals ← c.2.children.mapM fun v => scalar lib v.2
    return { fab with extraLists := fab.extraLists ++ [(k, vals)] }
  else if isKeyval c = true then
    return { fab with extra := fab.extra ++ [(k, ← scalar lib c.2)] }
  else reject ["fabric: unexpected block ", quoted k]

/-- `parse_fabric`, into a fabric that is there. -/
def parseFabric (fab : Fabric) (fnode : Yaml) : Except ConfigError Fabric :=
  fnode.children.foldlM (fabricKey lib) fab

/-- The children have no other keys than these. -/
def onlyKeys (allowed : List CStr) (message : CStr → List CStr) (node : Yaml) :
    Except ConfigError Unit :=
  node.children.forM fun c => do
    let k ← keyOf lib c.1
    if k ∈ allowed then return () else reject (message k)

/-- An LP type of an explicit group. -/
def groupLp (gname : CStr) (grp : CompiledSection) (lp : Option CStr × Yaml) :
    Except ConfigError CompiledSection := do
  let lptype ← keyOf lib lp.1
  let text ← scalar lib lp.2
  let count ← parseIntStrict text (["topology.groups ".toList, quoted gname, " lp ".toList,
    quoted lptype, " count".toList].flatten)
  if count ≤ 0 then
    reject ["topology.groups: ".toList, quoted gname, ": lp ".toList, quoted lptype,
      " count must be positive".toList]
  else return grp.addKey lptype [intStr count]

/-- An explicit group. -/
def addGroupSection (lpgroups : CompiledSection) (g : Option CStr × Yaml) :
    Except ConfigError CompiledSection := do
  let gname ← keyOf lib g.1
  if g.2.isMap = false then
    reject ["topology.groups: ".toList, quoted gname,
      " must be a block with repetitions and lps".toList]
  else
    onlyKeys lib ["repetitions".toList, "lps".toList] (fun k => ["topology.groups: ".toList,
      quoted gname, ": unexpected key ".toList, quoted k, " (only repetitions and lps)".toList]) g.2
    match g.2.find "repetitions".toList with
    | none =>
      reject ["topology.groups: ".toList, quoted gname, " needs a repetitions count".toList]
    | some repsNode =>
      let text ← scalar lib repsNode
      let reps ← parseIntStrict text (["topology.groups ".toList, quoted gname,
        " repetitions".toList].flatten)
      if reps ≤ 0 then
        reject ["topology.groups: ".toList, quoted gname, " repetitions must be positive".toList]
      else
        match g.2.find "lps".toList with
        | some (.map (lp :: lps)) =>
          let grp := (CompiledSection.mk gname [] []).addKey "repetitions".toList [intStr reps]
          let grp ← (Yaml.map (lp :: lps)).children.foldlM (groupLp lib gname) grp
          return lpgroups.addSubsection grp
        | _ =>
          reject ["topology.groups: ".toList, quoted gname,
            " needs a non-empty lps map of lp-type -> count".toList]

/-- `parse_explicit_groups`, behind the groups that are there. -/
def parseExplicitGroups (lpgroups : CompiledSection) (groups : Yaml) :
    Except ConfigError CompiledSection :=
  if groups.isMap = false ∨ groups.children = [] then
    reject ["topology.groups must be a non-empty map of group-name -> \x7b ",
      "repetitions, lps \x7d"]
  else groups.children.foldlM (addGroupSection lib) lpgroups

/-- `parse_topology`, for `format: parametric`. -/
def parseParametric (topo : Yaml) (fab : Fabric) : Except ConfigError Fabric := do
  onlyKeys lib ["format", "fabric", "hosts"] (fun k =>
    ["topology: unexpected key ", quoted k, " for a parametric topology"]) topo
  match topo.find "fabric" with
  | none => reject ["parametric topology needs a \"fabric\" block"]
  | some fnode =>
    let fab ← parseFabric lib fab fnode
    match topo.find "hosts" with
    | none =>
      reject ["parametric topology needs hosts.component naming the per-terminal workload"]
    | some hosts =>
      onlyKeys lib ["component"] (fun k => ["topology.hosts: unexpected key ",
        quoted k, " (only \"component\" is supported)"]) hosts
      match hosts.find "component" with
      | none =>
        reject ["parametric topology needs hosts.component naming the per-terminal workload"]
      | some component => return { fab with hostsComponent := ← scalar lib component }

/-- `parse_topology`, for `format: flat`. -/
def parseFlat (topo : Yaml) : Except ConfigError (CStr × ℤ) := do
  onlyKeys lib ["format", "component", "nodes"] (fun k =>
    ["topology: unexpected key ", quoted k, " for a flat topology"]) topo
  match topo.find "component" with
  | none =>
    reject ["flat topology needs a \"component\" naming the compute node (workload + ",
      "its NIC model)"]
  | some component =>
    let flatComponent ← scalar lib component
    match topo.find "nodes" with
    | none => reject ["flat topology needs a \"nodes\" count"]
    | some nodes =>
      let text ← scalar lib nodes
      let nodeCount ← parseIntStrict text "topology.nodes"
      if nodeCount ≤ 0 then reject ["topology.nodes must be positive"]
      else return (flatComponent, nodeCount)

/-- `parse_topology`, for `format: groups`. -/
def parseGroups (topo : Yaml) (lpgroups params : CompiledSection) :
    Except ConfigError (CompiledSection × CompiledSection) := do
  onlyKeys lib ["format", "groups", "params"] (fun k =>
    ["topology: unexpected key ", quoted k, " for an explicit-groups topology"]) topo
  match topo.find "groups" with
  | none => reject ["explicit-groups topology needs a \"groups\" block"]
  | some groups =>
    let lpgroups ← parseExplicitGroups lib lpgroups groups
    match topo.find "params" with
    | none => return (lpgroups, params)
    | some node =>
      if node.isMap = false then reject ["topology.params must be a map of key -> value"]
      else
        let sec ← buildPassthroughSection lib "PARAMS" node
        return (lpgroups, sec)

/-- The format of a topology; empty if there is none. -/
def topologyFormat (topo : Yaml) : Except ConfigError CStr :=
  match topo.find "format" with
  | none => .ok []
  | some format => scalar lib format

/-- `parse_topology`. -/
def parseTopology (topo : Yaml) : Except ConfigError Topology := do
  let format ← topologyFormat lib topo
  if format = "parametric" then (parseParametric lib topo .empty).map .parametric
  else if format = "flat" then
    (parseFlat lib topo).map fun (flatComponent, nodeCount) => .flat flatComponent nodeCount
  else if format = "groups" then
    (parseGroups lib topo (.mk "LPGROUPS" [] []) (.mk "PARAMS" [] [])).map
      fun (lpgroups, params) => .explicitGroups lpgroups params
  else if format = [] then
    reject ["topology needs a \"format\" (flat, parametric, or groups)"]
  else reject ["unknown topology format ", quoted format]

/-! ### Run-level settings -/

/-- A setting of the `simulation:` block, resolved. -/
def readSetting (c : Option CStr × Yaml) : Except ConfigError (CStr × CStr) := do
  let k ← keyOf lib c.1
  if isKeyval c = false then
    reject ["simulation: ", quoted k, " must be a scalar value"]
  else if k = "end_time" then
    let raw ← scalar lib c.2
    let time ← resolveTimeNs lib "simulation.end_time" raw
    return ("end_time", time)
  else if k = "pe_mem_factor" then
    let raw ← scalar lib c.2
    let v ← parseIntStrict raw "simulation.pe_mem_factor"
    if v ≤ 0 then
      reject ["simulation.pe_mem_factor must be a positive integer, got ", quoted raw]
    else return ("pe_mem_factor", intStr v)
  else
    reject ["simulation: unexpected key ", quoted k,
      " (supported: end_time, pe_mem_factor)"]

/-- A setting of the `simulation:` block. -/
def simulationKey (simulation : KvList) (c : Option CStr × Yaml) : Except ConfigError KvList := do
  let kv ← readSetting lib c
  return setSimulation simulation kv.1 kv.2

/-- `parse_simulation`. -/
def parseSimulation (root : Yaml) (simulation : KvList) : Except ConfigError KvList :=
  match root.find "simulation" with
  | none => .ok simulation
  | some sim =>
    if sim.isMap = false then
      reject ["\"simulation\" must be a map of run-level settings (end_time, pe_mem_factor)"]
    else sim.children.foldlM (simulationKey lib) simulation

/-! ### Jobs -/

/-- A job while its fields are read. -/
structure JobFields where
  id : CStr
  wl : Option WorkloadBlock
  ranks : Option ℤ
  /-- The placement: contiguous, and the nodes. -/
  placement : Option (Bool × List ℤ)

/-- The name of a job in messages. -/
def jobOwner (id suffix : CStr) : CStr :=
  if id = [] then "jobs: entry" ++ suffix else "job " ++ quoted id ++ suffix

/-- A node of a placement. -/
def placementNode (n : Option CStr × Yaml) : Except ConfigError ℤ := do
  let text ← scalar lib n.2
  let idx ← parseIntStrict text "job placement node index"
  if idx < 0 then
    reject ["job placement node index must be non-negative, got ", quoted text]
  else return idx

/-- The placement of a job: what is appended to its nodes, and whether it is contiguous. -/
def parsePlacement (f : Yaml) : Except ConfigError (Bool × List ℤ) :=
  if f.isMap = false then
    reject ["job placement must be a block: either \x7b policy: contiguous \x7d or ",
      "\x7b nodes: [ ... ] \x7d"]
  else
    match f.find "policy", f.find "nodes" with
    | some policyNode, none => do
      onlyKeys lib ["policy", "nodes"] (fun k =>
        ["job placement: unexpected key ", quoted k, " (only policy or nodes)"]) f
      let policy ← scalar lib policyNode
      if policy ≠ "contiguous" then
        reject ["job placement policy ", quoted policy,
          " is not supported (only \"contiguous\")"]
      else return (true, [])
    | none, some nodes => do
      onlyKeys lib ["policy", "nodes"] (fun k =>
        ["job placement: unexpected key ", quoted k, " (only policy or nodes)"]) f
      if nodes.isSeq = false ∨ nodes.children = [] then
        reject ["job placement nodes must be a non-empty list of node indices"]
      else return (false, ← nodes.children.mapM (placementNode lib))
    | _, _ =>
      reject ["job placement must set exactly one of \"policy\" or \"nodes\""]

/-- A field of a job. -/
def jobField (j : JobFields) (f : Option CStr × Yaml) : Except ConfigError JobFields := do
  let k ← keyOf lib f.1
  if k = "id" then return { j with id := ← scalar lib f.2 }
  else if k = "workload" then
    return { j with wl := ← parseWorkload lib f.2 (jobOwner j.id []) }
  else if k = "ranks" then
    let text ← scalar lib f.2
    return { j with ranks := ← parseIntStrict text (jobOwner j.id " ranks") }
  else if k = "placement" then
    let p ← parsePlacement lib f.2
    -- a second placement adds to the first
    let old := j.placement.getD (false, [])
    return { j with placement := some (old.1 || p.1, old.2 ++ p.2) }
  else if k = "qos" then
    reject ["job \"qos\" is recognized but not yet configurable from this format; ",
      "remove it (use the legacy path for QoS)"]
  else
    reject ["jobs: unexpected key ", quoted k,
      " (supported: id, workload, ranks, placement)"]

/-- A job that has all its fields. -/
def finishJob (jobs : List Job) (j : JobFields) : Except ConfigError Job :=
  if j.id = [] then reject ["every job needs a non-empty \"id\""]
  else if (jobs.any fun e => e.id == j.id) = true then
    reject ["duplicate job id ", quoted j.id]
  else
    match j.wl with
    | none => reject ["job ", quoted j.id, " needs a \"workload\""]
    | some wl =>
      match j.ranks with
      | none => reject ["job ", quoted j.id, " needs a \"ranks\" count"]
      | some ranks =>
        if ranks ≤ 0 then
          reject ["job ", quoted j.id, " ranks must be a positive integer"]
        else
          match j.placement with
          | none =>
            reject ["job ", quoted j.id,
              " needs a \"placement\" (contiguous policy or a node list)"]
          | some (contiguous, nodes) =>
            if contiguous = false ∧ (nodes.length : ℤ) ≠ ranks then
              reject ["job ", quoted j.id, " ranks (", intStr ranks,
                ") does not match its placement node count (", intStr nodes.length,
                ")"]
            else .ok ⟨j.id, wl, ranks, contiguous, nodes⟩

/-- A job is added. -/
def addJob (jobs : List Job) (jnode : Option CStr × Yaml) : Except ConfigError (List Job) :=
  if jnode.2.isMap = false then
    reject ["jobs: each entry must be a block with id, workload, ranks, and placement"]
  else do
    let fields ← jnode.2.children.foldlM (jobField lib) ⟨[], none, none, none⟩
    let j ← finishJob jobs fields
    return jobs ++ [j]

/-- `parse_jobs`. -/
def parseJobs (root : Yaml) (jobs : Option (List Job)) : Except ConfigError (Option (List Job)) :=
  match root.find "jobs" with
  | none => .ok jobs
  | some node =>
    if node.isSeq = false then reject ["\"jobs\" must be a list of job blocks"]
    else do return some (← node.children.foldlM (addJob lib) [])

/-! ### Documents -/

/-- `validate_toplevel_keys`. -/
def validateToplevelKeys (root : Yaml) (isBase : Bool) : Except ConfigError Unit :=
  root.children.forM fun c => do
    let k ← keyOf lib c.1
    if k ∉ ["schema_version".toList, "components".toList, "topology".toList, "sections".toList,
        "simulation".toList, "jobs".toList, "include".toList] then
      reject ["unexpected top-level key ".toList, quoted k]
    else if k = "include".toList ∧ isBase = true then
      reject ["an included file cannot itself use \"include\" (nested includes are not ".toList,
        "supported)".toList]
    else return ()

/-- `require_schema_version`. -/
def requireSchemaVersion (root : Yaml) : Except ConfigError Unit :=
  match root.find "schema_version" with
  | none =>
    reject ["missing required top-level \"schema_version\" (this build understands ",
      "version 1)"]
  | some node => do
    let text ← scalar lib node
    let v ← parseIntStrict text "schema_version"
    if v ≠ 1 then
      reject ["unsupported schema_version ", intStr v,
        "; this build understands version 1"]
    else return ()

/-- `validate_schema_version_if_present`. -/
def validateSchemaVersionIfPresent (root : Yaml) : Except ConfigError Unit :=
  match root.find "schema_version" with
  | none => .ok ()
  | some _ => requireSchemaVersion lib root

/-- A topology replaces the earlier one. -/
def mergeTopology (root : Yaml) (topology : Option Topology) :
    Except ConfigError (Option Topology) :=
  match root.find "topology" with
  | none => .ok topology
  | some topo => do return some (← parseTopology lib topo)

/-- `merge_document`. -/
def mergeDocument (cfg : FriendlyConfig) (root : Yaml) : Except ConfigError FriendlyConfig := do
  let components ← parseComponents lib root cfg.components
  let topology ← mergeTopology lib root cfg.topology
  let passthrough ← parseSections lib root cfg.passthrough
  let simulation ← parseSimulation lib root cfg.simulation
  let jobs ← parseJobs lib root cfg.jobs
  return ⟨components, topology, jobs, passthrough, simulation⟩

/-- `with_parsed_document`. -/
def parseDocument (text : CStr) : Except ConfigError Yaml := do
  let root ← lib.parse text
  if root.isMap = false then
    reject ["config must be a YAML/JSON mapping at the top level"]
  else return root

/-- An included document. -/
def mergeBase (cfg : FriendlyConfig) (doc : CStr) : Except ConfigError FriendlyConfig := do
  let root ← parseDocument lib doc
  validateToplevelKeys lib root true
  validateSchemaVersionIfPresent lib root
  mergeDocument lib cfg root

/-- The main document. -/
def mergeMain (cfg : FriendlyConfig) (doc : CStr) : Except ConfigError FriendlyConfig := do
  let root ← parseDocument lib doc
  validateToplevelKeys lib root false
  requireSchemaVersion lib root
  mergeDocument lib cfg root

/-- The documents of `compile`, merged: the included ones first. -/
def mergeDocuments (mainDoc : CStr) (baseDocs : List CStr) : Except ConfigError FriendlyConfig := do
  let cfg ← baseDocs.foldlM (mergeBase lib) ⟨[], none, none, [], []⟩
  mergeMain lib cfg mainDoc

end Parse

end CodesSim.Config
