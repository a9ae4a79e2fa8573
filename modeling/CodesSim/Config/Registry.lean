import CodesSim.Config.Friendly

/-!
# The models the compiler knows

The registry of `config_compiler.cxx`: the names of the LP types and methods of each model, the
units of its parameters, and how many LPs of each type a shape gives.  Counts are `long`s; a sum or
a product beyond is taken modulo `2 ^ 64`.
-/

namespace CodesSim.Config

/-! ### Units -/

/-- `param_unit`. -/
structure ParamUnit where
  name : CStr
  kind : Quantity
  internalScale : ℚ

def bwGibS : ℚ := 1024 * 1024 * 1024

def bwMibS : ℚ := 1024 * 1024

def bwBytesNs : ℚ := 1000 * 1000 * 1000

def tNs : ℚ := 1

def tUs : ℚ := 1000

def szBytes : ℚ := 1

/-- `common_params`. -/
def commonParams : List ParamUnit :=
  [⟨"packet_size", .size, szBytes⟩, ⟨"chunk_size", .size, szBytes⟩,
    ⟨"message_size", .size, szBytes⟩, ⟨"credit_size", .size, szBytes⟩,
    ⟨"buffer_size", .size, szBytes⟩, ⟨"vc_size", .size, szBytes⟩,
    ⟨"cn_vc_size", .size, szBytes⟩, ⟨"local_vc_size", .size, szBytes⟩,
    ⟨"global_vc_size", .size, szBytes⟩, ⟨"router_delay", .time, tNs⟩,
    ⟨"soft_delay", .time, tNs⟩, ⟨"net_startup_ns", .time, tNs⟩]

/-- `slimfly_units`, which are those of every dragonfly. -/
def slimflyUnits : List ParamUnit :=
  [⟨"local_bandwidth", .bandwidth, bwGibS⟩, ⟨"global_bandwidth", .bandwidth, bwGibS⟩,
    ⟨"cn_bandwidth", .bandwidth, bwGibS⟩]

def dragonflyUnits : List ParamUnit := slimflyUnits

def dragonflyDallyUnits : List ParamUnit :=
  slimflyUnits ++ [⟨"counting_start", .time, tUs⟩, ⟨"counting_interval", .time, tUs⟩]

def dragonflyPlusUnits : List ParamUnit :=
  dragonflyDallyUnits ++ [⟨"counting_end", .time, tUs⟩]

def dragonflyCustomUnits : List ParamUnit := dragonflyDallyUnits

def torusUnits : List ParamUnit := [⟨"link_bandwidth", .bandwidth, bwGibS⟩]

def expressMeshUnits : List ParamUnit :=
  [⟨"link_bandwidth", .bandwidth, bwGibS⟩, ⟨"cn_bandwidth", .bandwidth, bwGibS⟩]

def fattreeUnits : List ParamUnit :=
  [⟨"link_bandwidth", .bandwidth, bwBytesNs⟩, ⟨"cn_bandwidth", .bandwidth, bwBytesNs⟩]

def simplenetUnits : List ParamUnit := [⟨"net_bw_mbps", .bandwidth, bwMibS⟩]

/-- `find_param_unit`. -/
def findParamUnit (modelUnits : List ParamUnit) (key : CStr) : Option ParamUnit :=
  (modelUnits ++ commonParams).find? fun u => u.name == key

/-! ### Shapes -/

/-- A `long`. -/
def wrapLong (n : ℤ) : ℤ := n.bmod (2 ^ 64)

/-- `layout`. -/
structure Layout where
  (repetitions terminalsPerRep routersPerRep : ℤ)

/-- `shape_str`. -/
def shapeStr (shape : KvList) (key : CStr) : Except ConfigError CStr :=
  match shape.find? fun kv => kv.1 == key with
  | some kv => .ok kv.2
  | none => reject ["fabric shape is missing required key ", quoted key]

/-- `shape_int`. -/
def shapeInt (shape : KvList) (key : CStr) : Except ConfigError ℤ := do
  let text ← shapeStr shape key
  parseIntStrict text ("fabric shape " ++ quoted key)

/-- `shape_int_default`. -/
def shapeIntDefault (shape : KvList) (key : CStr) (dflt : ℤ) : Except ConfigError ℤ :=
  match shape.find? fun kv => kv.1 == key with
  | some kv => parseIntStrict kv.2 ("fabric shape " ++ quoted key)
  | none => .ok dflt

/-- What stands behind a number and blanks. -/
def afterNumber (text : CStr) : CStr :=
  ((splitSign (text.dropWhile isSpace)).2.dropWhile Char.isDigit).dropWhile (· == ' ')

theorem splitSign_length (text : CStr) : (splitSign text).2.length ≤ text.length := by
  unfold splitSign
  split
  · exact Nat.le_succ _
  · exact Nat.le_succ _
  · exact Nat.le_refl _

theorem afterNumber_length (text : CStr) : (afterNumber text).length ≤ text.length :=
  calc (afterNumber text).length
      ≤ ((splitSign (text.dropWhile isSpace)).2.dropWhile Char.isDigit).length :=
        (List.dropWhile_suffix _).length_le
    _ ≤ (splitSign (text.dropWhile isSpace)).2.length := (List.dropWhile_suffix _).length_le
    _ ≤ (text.dropWhile isSpace).length := splitSign_length _
    _ ≤ text.length := (List.dropWhile_suffix _).length_le

/-- The loop of `parse_dim_lengths`: positive numbers with commas between them. -/
def dimLengths (text : CStr) : Option (List ℤ) :=
  if (splitSign (text.dropWhile isSpace)).2.takeWhile Char.isDigit = [] ∨ (strtol text).2 = true ∨
      (strtol text).1 ≤ 0 then none
  else
    match _h : afterNumber text with
    | [] => some [(strtol text).1]
    | ',' :: rest => (dimLengths rest).map ((strtol text).1 :: ·)
    | _ => none
termination_by text.length
decreasing_by
  have hlen := congrArg List.length _h
  have hrest := afterNumber_length text
  rw [List.length_cons] at hlen
  exact (Nat.lt_succ_self _).trans_le (hlen.ge.trans hrest)

/-- `parse_dim_lengths`. -/
def parseDimLengths (shape : KvList) (key : CStr) : Except ConfigError (List ℤ) := do
  let s ← shapeStr shape key
  match dimLengths (cstr s) with
  | some dims => return dims
  | none =>
    reject ["fabric shape ", quoted key,
      " must be a comma-separated list of positive integers, got ", quoted s]

/-- The product of dimension lengths, unless it overflows. -/
def dimProduct (dims : List ℤ) : Option ℤ :=
  dims.foldlM (fun prod d => if prod > (2 ^ 63 - 1) / d then none else some (prod * d)) 1

/-- `mesh_node_count`. -/
def meshNodeCount (shape : KvList) (modelName : CStr) : Except ConfigError ℤ := do
  let nDims ← shapeInt shape "n_dims"
  let dims ← parseDimLengths shape "dim_length"
  if (dims.length : ℤ) ≠ nDims then
    reject [modelName, " n_dims (", intStr nDims,
      ") does not match the number of dim_length entries (", intStr dims.length, ")"]
  else
    match dimProduct dims with
    | none => reject [modelName, " dim_length product overflows"]
    | some prod => return prod

/-- `derive_dragonfly`. -/
def deriveDragonfly (shape : KvList) : Except ConfigError Layout := do
  let numRouters ← shapeInt shape "num_routers"
  if numRouters ≤ 0 then reject ["dragonfly num_routers must be positive"]
  else
    let numCn := numRouters.tdiv 2
    let numGroups := wrapLong (wrapLong (numRouters * numCn) + 1)
    return ⟨wrapLong (numGroups * numRouters), numCn, 1⟩

/-- `derive_dragonfly_dally`. -/
def deriveDragonflyDally (shape : KvList) : Except ConfigError Layout := do
  let numRouters ← shapeInt shape "num_routers"
  let numGroups ← shapeInt shape "num_groups"
  let numCns ← shapeInt shape "num_cns_per_router"
  let numPlanes ← shapeIntDefault shape "num_planes" 1
  -- required, but not part of the counts
  let _ ← shapeInt shape "num_global_channels"
  return ⟨wrapLong (wrapLong (numGroups * numPlanes) * numRouters), numCns, 1⟩

/-- `derive_fattree`. -/
def deriveFattree (shape : KvList) : Except ConfigError Layout := do
  let switchCount ← shapeInt shape "switch_count"
  let switchRadix ← shapeInt shape "switch_radix"
  let numLevels ← shapeInt shape "num_levels"
  if switchRadix.tmod 2 ≠ 0 then
    reject ["fattree switch_radix must be even (each edge switch ",
      "hosts switch_radix/2 terminals), got ", intStr switchRadix]
  else return ⟨switchCount, switchRadix.tdiv 2, numLevels⟩

/-- `derive_torus`. -/
def deriveTorus (shape : KvList) : Except ConfigError Layout := do
  let nodes ← meshNodeCount shape "torus"
  return ⟨nodes, 1, 0⟩

/-- `derive_express_mesh`. -/
def deriveExpressMesh (shape : KvList) : Except ConfigError Layout := do
  let routers ← meshNodeCount shape "express-mesh"
  let numCn ← shapeInt shape "num_cn"
  return ⟨routers, numCn, 1⟩

/-- `derive_slimfly`. -/
def deriveSlimfly (shape : KvList) : Except ConfigError Layout := do
  let numRouters ← shapeInt shape "num_routers"
  let numTerminals ← shapeInt shape "num_terminals"
  if numRouters ≤ 0 then reject ["slimfly num_routers must be positive"]
  else return ⟨wrapLong (wrapLong (2 * numRouters) * numRouters), numTerminals, 1⟩

/-- `derive_dragonfly_plus`. -/
def deriveDragonflyPlus (shape : KvList) : Except ConfigError Layout := do
  let numGroups ← shapeInt shape "num_groups"
  let spine ← shapeInt shape "num_router_spine"
  let leaf ← shapeInt shape "num_router_leaf"
  let numCns ← shapeInt shape "num_cns_per_router"
  return ⟨numGroups, wrapLong (leaf * numCns), wrapLong (spine + leaf)⟩

/-- `derive_dragonfly_custom`. -/
def deriveDragonflyCustom (shape : KvList) : Except ConfigError Layout := do
  let numGroups ← shapeInt shape "num_groups"
  let rows ← shapeInt shape "num_router_rows"
  let cols ← shapeInt shape "num_router_cols"
  let numCns ← shapeInt shape "num_cns_per_router"
  -- required, but not part of the counts
  let _ ← shapeInt shape "num_global_channels"
  return ⟨wrapLong (wrapLong (numGroups * rows) * cols), numCns, 1⟩

/-! ### Models -/

/-- `fabric_model`. -/
structure FabricModel where
  name : CStr
  terminalLp : CStr
  routerLp : Option CStr
  termMethod : CStr
  routerMethod : Option CStr
  derive : KvList → Except ConfigError Layout
  units : List ParamUnit

/-- `fabric_models`. -/
def fabricModels : List FabricModel :=
  [⟨"dragonfly", "modelnet_dragonfly", some "modelnet_dragonfly_router",
      "dragonfly", some "dragonfly_router", deriveDragonfly, dragonflyUnits⟩,
    ⟨"dragonfly-dally", "modelnet_dragonfly_dally",
      some "modelnet_dragonfly_dally_router", "dragonfly_dally",
      some "dragonfly_dally_router", deriveDragonflyDally, dragonflyDallyUnits⟩,
    ⟨"fattree", "modelnet_fattree", some "fattree_switch", "fattree",
      none, deriveFattree, fattreeUnits⟩,
    ⟨"torus", "modelnet_torus", none, "torus", none, deriveTorus, torusUnits⟩,
    ⟨"express-mesh", "modelnet_express_mesh",
      some "modelnet_express_mesh_router", "express_mesh",
      some "express_mesh_router", deriveExpressMesh, expressMeshUnits⟩,
    ⟨"slimfly", "modelnet_slimfly", some "modelnet_slimfly_router",
      "slimfly", some "slimfly_router", deriveSlimfly, slimflyUnits⟩,
    ⟨"dragonfly-plus", "modelnet_dragonfly_plus",
      some "modelnet_dragonfly_plus_router", "dragonfly_plus",
      some "dragonfly_plus_router", deriveDragonflyPlus, dragonflyPlusUnits⟩,
    ⟨"dragonfly-custom", "modelnet_dragonfly_custom",
      some "modelnet_dragonfly_custom_router", "dragonfly_custom",
      some "dragonfly_custom_router", deriveDragonflyCustom, dragonflyCustomUnits⟩]

/-- `find_fabric_model`. -/
def findFabricModel (name : CStr) : Option FabricModel := fabricModels.find? fun m => m.name == name

/-- `network_model`. -/
structure NetworkModel where
  (name nicLp method : CStr)
  units : List ParamUnit

/-- `network_models`. -/
def networkModels : List NetworkModel :=
  [⟨"simplenet", "modelnet_simplenet", "simplenet", simplenetUnits⟩,
    ⟨"simplep2p", "modelnet_simplep2p", "simplep2p", []⟩,
    ⟨"loggp", "modelnet_loggp", "loggp", []⟩]

/-- `find_network_model`. -/
def findNetworkModel (name : CStr) : Option NetworkModel :=
  networkModels.find? fun m => m.name == name

end CodesSim.Config
