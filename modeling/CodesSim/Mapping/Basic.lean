import Mathlib.Algebra.BigOperators.Group.List.Basic
import Mathlib.Data.UInt

/-!
# The mapping between LP ids and LP groups

`LPGROUPS` describes a simulation as a list of groups; a group repeats a list of LP types, each
with a count and an optional annotation.  Global LP ids number the LPs group by group, inside a
group repetition by repetition, inside a repetition type by type (`codes_mapping.c`).

* `LpConf` is the configuration (`config_lpgroups_t`) and `LpConf.Wf` what
  `configuration_get_lpgroups` guarantees about it;
* `CodesMapping.getLpId` computes an id from a name, `CodesMapping.getLpInfo` and
  `CodesMapping.getLpInfo2` go the other way;
* ids are `tw_lpid`, 64-bit words: the running sums of the scans wrap around, and `int` casts
  truncate (`CodesMapping.toInt`).
-/

namespace CodesSim

/-- An LP type of a group (`config_lptype_t`).  The annotation is `none` where the source has a
`NULL` pointer. -/
structure LpType where
  /-- Name of the LP type. -/
  name : String
  /-- Annotation, the part after `@` in the configuration. -/
  anno : Option String
  /-- LPs of this type in one repetition. -/
  count : ℕ
  deriving DecidableEq

/-- An LP group (`config_lpgroup_t`). -/
structure LpGroup where
  /-- Name of the group. -/
  name : String
  /-- Number of repetitions. -/
  repetitions : ℕ
  /-- The LP types of one repetition, in configuration order. -/
  lptypes : List LpType

/-- The LP-group configuration (`config_lpgroups_t`). -/
abbrev LpConf := List LpGroup

/-- LPs in a list of types. -/
def lpCount (ts : List LpType) : ℕ := (ts.map LpType.count).sum

namespace LpGroup

/-- LPs in one repetition of the group. -/
def perRep (g : LpGroup) : ℕ := lpCount g.lptypes

/-- LPs in the group. -/
def size (g : LpGroup) : ℕ := g.repetitions * g.perRep

end LpGroup

/-- The total number of LPs. -/
def totalLps (conf : LpConf) : ℕ := (conf.map LpGroup.size).sum

/-- What the configuration reader guarantees: group names are distinct, repetitions and counts
are positive `int`s, and the types of a group differ in name or annotation. -/
structure LpConf.Wf (conf : LpConf) : Prop where
  names : (conf.map LpGroup.name).Nodup
  reps : ∀ g ∈ conf, 0 < g.repetitions ∧ g.repetitions < 2 ^ 31
  counts : ∀ g ∈ conf, ∀ t ∈ g.lptypes, 0 < t.count ∧ t.count < 2 ^ 31
  types : ∀ g ∈ conf, (g.lptypes.map fun t => (t.name, t.anno)).Nodup

instance (conf : LpConf) : Decidable conf.Wf :=
  decidable_of_iff
    ((conf.map LpGroup.name).Nodup ∧ (∀ g ∈ conf, 0 < g.repetitions ∧ g.repetitions < 2 ^ 31) ∧
      (∀ g ∈ conf, ∀ t ∈ g.lptypes, 0 < t.count ∧ t.count < 2 ^ 31) ∧
      ∀ g ∈ conf, (g.lptypes.map fun t => (t.name, t.anno)).Nodup)
    ⟨fun ⟨h1, h2, h3, h4⟩ => ⟨h1, h2, h3, h4⟩, fun ⟨h1, h2, h3, h4⟩ => ⟨h1, h2, h3, h4⟩⟩

/-- Group names are distinct, and repetitions and counts are positive `int`s. -/
structure LpConf.Positive (conf : LpConf) : Prop where
  names : (conf.map LpGroup.name).Nodup
  reps : ∀ g ∈ conf, 0 < g.repetitions ∧ g.repetitions < 2 ^ 31
  counts : ∀ g ∈ conf, ∀ t ∈ g.lptypes, 0 < t.count ∧ t.count < 2 ^ 31

instance (conf : LpConf) : Decidable conf.Positive :=
  decidable_of_iff
    ((conf.map LpGroup.name).Nodup ∧ (∀ g ∈ conf, 0 < g.repetitions ∧ g.repetitions < 2 ^ 31) ∧
      ∀ g ∈ conf, ∀ t ∈ g.lptypes, 0 < t.count ∧ t.count < 2 ^ 31)
    ⟨fun ⟨h1, h2, h3⟩ => ⟨h1, h2, h3⟩, fun ⟨h1, h2, h3⟩ => ⟨h1, h2, h3⟩⟩

theorem LpConf.Wf.positive {conf : LpConf} (h : conf.Wf) : conf.Positive :=
  ⟨h.names, h.reps, h.counts⟩

/-- No annotation is the empty string: the grammar of `.conf` files wants something after the
`@`. -/
def LpConf.AnnosNonempty (conf : LpConf) : Prop := ∀ g ∈ conf, ∀ t ∈ g.lptypes, t.anno ≠ some ""

instance (conf : LpConf) : Decidable conf.AnnosNonempty :=
  inferInstanceAs (Decidable (∀ g ∈ conf, ∀ t ∈ g.lptypes, t.anno ≠ some ""))

/-- A global LP id (`tw_lpid`). -/
abbrev Lpid := UInt64

namespace CodesMapping

/-- The cast of a 64-bit word to `int`. -/
def toInt (w : Lpid) : ℤ := (w.toNat : ℤ).bmod (2 ^ 32)

/-- An integer as an `int`: a conversion, or arithmetic that wraps around. -/
def wrapInt (i : ℤ) : ℤ := i.bmod (2 ^ 32)

/-- The cast of an `int` to `tw_lpid`. -/
def ofInt (i : ℤ) : Lpid := UInt64.ofInt i

/-- Compare a user annotation with a configured one. -/
def cmpAnno (user config : Option String) : Bool := user == config

/-- The number of LPs in one repetition, summed up as the scans do. -/
def repCount (lpg : LpGroup) : Lpid :=
  lpg.lptypes.foldl (fun n lpt => n + UInt64.ofNat lpt.count) 0

/-! ### From a name to an id -/

/-- The text of the failure of `getLpId`. -/
def lpIdError (groupName lpTypeName anno : Option String) (repId offset : ℤ) : String :=
  "Unable to find LP id given group \"" ++ groupName.getD "<NULL>" ++ "\", typename \"" ++
    lpTypeName.getD "<NULL>" ++ "\", anno \"" ++ anno.getD "<NULL>" ++
    "\", repetition " ++ toString repId ++ ", and offset " ++ toString offset

/-- The scan of `getLpId` over the types of the group it found.  `gid` counts the LPs of the
groups before it, `localLpCount` those of the types before. -/
def lpIdInGroup (lpTypeName : String) (anno : Option String) (ignoreAnno : Bool)
    (repId offset : ℤ) (repCount gid : Lpid) : Lpid → List LpType → Option Lpid
  | _, [] => none
  | localLpCount, lpt :: ts =>
    if lpt.name = lpTypeName ∧ (ignoreAnno || cmpAnno anno lpt.anno) = true then
      if offset ≥ lpt.count then none
      else some (gid + (repCount * ofInt repId + localLpCount + ofInt offset))
    else
      lpIdInGroup lpTypeName anno ignoreAnno repId offset repCount gid
        (localLpCount + UInt64.ofNat lpt.count) ts

/-- The scan of `getLpId` over the groups. -/
def lpIdScan (groupName lpTypeName : String) (anno : Option String) (ignoreAnno : Bool)
    (repId offset : ℤ) : Lpid → LpConf → Option Lpid
  | _, [] => none
  | gid, lpg :: gs =>
    if lpg.name = groupName then
      if repId ≥ lpg.repetitions then none
      else
        lpIdInGroup lpTypeName anno ignoreAnno repId offset (repCount lpg) gid 0 lpg.lptypes
    else
      lpIdScan groupName lpTypeName anno ignoreAnno repId offset
        (gid + UInt64.ofNat lpg.repetitions * repCount lpg) gs

/-- The global id of an LP given by group, type, annotation, repetition and offset
(`codes_mapping_get_lp_id`); a `NULL` pointer is `none`. -/
def getLpId (conf : LpConf) (groupName lpTypeName anno : Option String)
    (ignoreAnno : Bool) (repId offset : ℤ) : Except String Lpid :=
  let found := if repId < 0 ∨ offset < 0 then none else
    groupName.bind fun g => lpTypeName.bind fun t =>
      lpIdScan g t anno ignoreAnno repId offset 0 conf
  match found with
  | some gid => .ok gid
  | none => .error (lpIdError groupName lpTypeName anno repId offset)

/-! ### From an id to a name -/

/-- The text of the failure of the lookups by id. -/
def lpInfoError (gid : Lpid) : String :=
  "Unable to find LP info given gid " ++ toString gid.toNat

/-- The scan over the types of a group for the LP at position `rem` of a repetition: the type,
its index and the offset inside it. -/
def typeScan (rem : Lpid) : Lpid → ℕ → List LpType → Option (LpType × ℕ × ℤ)
  | _, _, [] => none
  | numIdPerRep, l, lpt :: ts =>
    if rem < numIdPerRep + UInt64.ofNat lpt.count then
      some (lpt, l, toInt (rem - numIdPerRep))
    else typeScan rem (numIdPerRep + UInt64.ofNat lpt.count) (l + 1) ts

/-- The scan over the groups shared by both lookups: group, group index, type, type index,
repetition and offset.  When the scan over the types of a group ends without a hit the loop over
the groups goes on. -/
def groupScan (gid : Lpid) :
    Lpid → ℕ → LpConf → Option (LpGroup × ℕ × LpType × ℕ × ℤ × ℤ)
  | _, _, [] => none
  | idTotal, g, lpg :: gs =>
    let numIdPerRep := repCount lpg
    let numIdGroup := numIdPerRep * UInt64.ofNat lpg.repetitions
    if numIdGroup + idTotal > gid then
      let rem := gid - idTotal
      let repId := toInt (rem / numIdPerRep)
      match typeScan (rem - numIdPerRep * ofInt repId) 0 0 lpg.lptypes with
      | some (lpt, l, offset) => some (lpg, g, lpt, l, repId, offset)
      | none => groupScan gid idTotal (g + 1) gs
    else groupScan gid (idTotal + numIdGroup) (g + 1) gs

/-- The outputs of `codes_mapping_get_lp_info`. -/
structure LpInfo where
  groupName : String
  groupIndex : ℕ
  lpTypeName : String
  lpTypeIndex : ℕ
  /-- The empty string when the LP has no annotation. -/
  anno : String
  repId : ℤ
  offset : ℤ
  deriving DecidableEq

/-- The outputs of `codes_mapping_get_lp_info2`. -/
structure LpInfo2 where
  groupName : String
  lpTypeName : String
  /-- `none` when the LP has no annotation. -/
  anno : Option String
  repId : ℤ
  offset : ℤ
  deriving DecidableEq

/-- `codes_mapping_get_lp_info`, copying into the buffers of the caller. -/
def getLpInfo (conf : LpConf) (gid : Lpid) : Except String LpInfo :=
  match groupScan gid 0 0 conf with
  | some (lpg, g, lpt, l, repId, offset) =>
    .ok { groupName := lpg.name, groupIndex := g, lpTypeName := lpt.name, lpTypeIndex := l,
          anno := match lpt.anno with
            | none => ""
            | some a => a,
          repId := repId, offset := offset }
  | none => .error (lpInfoError gid)

/-- `codes_mapping_get_lp_info2`, returning pointers into the configuration. -/
def getLpInfo2 (conf : LpConf) (gid : Lpid) : Except String LpInfo2 :=
  match groupScan gid 0 0 conf with
  | some (lpg, _, lpt, _, repId, offset) =>
    .ok { groupName := lpg.name, lpTypeName := lpt.name, anno := lpt.anno,
          repId := repId, offset := offset }
  | none => .error (lpInfoError gid)

/-! ### Counting -/

/-- The LPs of type `lpTypeName` in one repetition of a group, by the scan of
`codes_mapping_get_lp_count` with `ignore_annos`: only the first entry of that name counts. -/
def typeCount (lpTypeName : String) : List LpType → ℕ
  | [] => 0
  | lpt :: ts => if lpt.name = lpTypeName then lpt.count else typeCount lpTypeName ts

/-- `codes_mapping_get_lp_count(group_name, 1, lp_type_name, NULL, 1)`: the LPs of a type in one
repetition of a group. -/
def getLpCount (conf : LpConf) (groupName lpTypeName : String) : ℕ :=
  match conf.find? fun lpg => lpg.name = groupName with
  | some lpg => typeCount lpTypeName lpg.lptypes
  | none => 0

end CodesMapping

end CodesSim
