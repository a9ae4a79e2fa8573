import CodesSim.Config.Friendly
import CodesSim.Lib.Outcome

/-!
# The fields of the topology

The compiler keeps the topology in fields of `friendly_config` beside each other: a flag for each
format and what the format has, which a later document with a topology fills again.
`reset_topology` clears all of them before, so the fields stand for the one topology that was read
last (`mergeTopologyFields_topology`).
-/

namespace CodesSim.Config

open Outcome

/-- The fields of `friendly_config` about the topology. -/
structure TopologyFields where
  parametric : Bool
  fab : Fabric
  flat : Bool
  flatComponent : CStr
  nodeCount : ℤ
  explicitGroups : Bool
  explicitLpgroups : CompiledSection
  explicitParams : CompiledSection

/-- The topology that `compile` takes. -/
def TopologyFields.topology (t : TopologyFields) : Option Topology :=
  if t.explicitGroups = true then some (.explicitGroups t.explicitLpgroups t.explicitParams)
  else if t.parametric = true then some (.parametric t.fab)
  else if t.flat = true then some (.flat t.flatComponent t.nodeCount)
  else none

/-- `reset_topology`. -/
def resetTopology (t : TopologyFields) : TopologyFields :=
  { t with
    parametric := false
    flat := false
    explicitGroups := false
    fab := .empty
    flatComponent := []
    nodeCount := 0
    explicitLpgroups := .mk "LPGROUPS" [] []
    explicitParams := .mk "PARAMS" [] [] }

section Parse

variable (lib : Library)

/-- `parse_topology`. -/
def topologyFields (topo : Yaml) (t : TopologyFields) : Except ConfigError TopologyFields := do
  let format ← topologyFormat lib topo
  if format = "parametric" then
    (parseParametric lib topo t.fab).map fun fab => { t with parametric := true, fab }
  else if format = "flat" then
    (parseFlat lib topo).map fun (flatComponent, nodeCount) =>
      { t with flat := true, flatComponent, nodeCount }
  else if format = "groups" then
    (parseGroups lib topo t.explicitLpgroups t.explicitParams).map
      fun (explicitLpgroups, explicitParams) =>
        { t with explicitGroups := true, explicitLpgroups, explicitParams }
  else if format = [] then
    reject ["topology needs a \"format\" (flat, parametric, or groups)"]
  else reject ["unknown topology format ", quoted format]

/-- The topology of a document is merged. -/
def mergeTopologyFields (root : Yaml) (t : TopologyFields) : Except ConfigError TopologyFields :=
  match root.find "topology" with
  | none => .ok t
  | some topo => topologyFields lib topo (resetTopology t)

end Parse

variable {lib : Library}

/-- **The fields stand for the last topology.** -/
theorem mergeTopologyFields_topology (root : Yaml) (t : TopologyFields) :
    (mergeTopologyFields lib root t).map TopologyFields.topology =
      mergeTopology lib root t.topology := by
  rw [mergeTopologyFields, mergeTopology]
  cases root.find "topology" with
  | none => rfl
  | some topo =>
    have hformat : (topologyFields lib topo (resetTopology t)).map TopologyFields.topology =
        (parseTopology lib topo).map some := by
      rw [topologyFields, parseTopology, map_bind, map_bind]
      refine bind_congr fun format => ?_
      dsimp only [resetTopology]
      split_ifs
      · cases parseParametric lib topo .empty with
        | error _ => rfl
        | ok fab => rfl
      · cases parseFlat lib topo with
        | error _ => rfl
        | ok flat => rfl
      · cases parseGroups lib topo (.mk "LPGROUPS" [] []) (.mk "PARAMS" [] []) with
        | error _ => rfl
        | ok secs => rfl
      · rfl
      · rfl
    refine hformat.trans ?_
    dsimp only
    cases parseTopology lib topo with
    | error _ => rfl
    | ok _ => rfl

end CodesSim.Config
