import CodesSim.Config.Store
import CodesSim.Mapping.Basic

/-!
# Loading the LP groups

`configuration_get_lpgroups` reads the section `LPGROUPS` into `lpconf`.  The names go into three
buffers; while they grow, groups and types keep offsets, and a second pass turns these into strings.

* The listings go into arrays of ten entries, of which a longer section fills all.
* A group is stored at the index of its entry in the listing, but what is read back in the end are
  as many slots as there are groups.
* Counts are read as `long` (`strtol`) and stored as `int`.
-/

namespace CodesSim.Config

open CodesMapping

/-! ### Numbers -/

/-- `isspace`. -/
def isSpace (c : Char) : Bool := c == ' ' || ('\t' ≤ c && c ≤ '\r')

theorem isSpace_of_isDigit {c : Char} (h : c.isDigit = true) : isSpace c = false := by
  have hdigit : 48 ≤ c.toNat ∧ c.toNat ≤ 57 := by
    simpa [Char.isDigit, UInt32.le_iff_toNat_le] using h
  by_contra hspace
  have hspace : c = ' ' ∨ '\t' ≤ c ∧ c ≤ '\r' := by
    simpa [isSpace, Classical.or_iff_not_imp_left] using hspace
  rcases hspace with rfl | ⟨-, hle⟩
  · exact absurd hdigit (by decide)
  · have hle : c.toNat ≤ 13 := hle
    omega

/-- The number that digits denote. -/
def digitsVal (digits : CStr) : ℕ := digits.foldl (fun n c => 10 * n + (c.toNat - '0'.toNat)) 0

/-- A sign, and what follows it. -/
def splitSign : CStr → Bool × CStr
  | '-' :: text => (true, text)
  | '+' :: text => (false, text)
  | text => (false, text)

/-- `strtol` to the base 10: the result, and whether `errno` is set. -/
def strtol (text : CStr) : ℤ × Bool :=
  let r := splitSign (text.dropWhile isSpace)
  let n : ℤ := digitsVal (r.2.takeWhile Char.isDigit)
  let v := if r.1 then -n else n
  if v > 2 ^ 63 - 1 then (2 ^ 63 - 1, true) else if v < -2 ^ 63 then (-2 ^ 63, true) else (v, false)

/-- `CHECKED_STRTOL`: a positive number, stored as an `int`. -/
def checkedStrtol (data : CStr) : Option ℤ :=
  if (strtol data).1 ≤ 0 ∨ (strtol data).2 = true then none else some (wrapInt (strtol data).1)

/-! ### Names -/

/-- Names one after the other, each with its terminating zero, and where they start. -/
structure NameBuf where
  buf : CStr
  offsets : List ℕ

/-- The string at an offset. -/
def cstrAt (buf : CStr) (offset : ℕ) : CStr := (buf.drop offset).takeWhile (· ≠ '\x00')

/-- `check_add_uniq_str`: the position of a name, which is added if it is new. -/
def checkAddUniqStr (b : NameBuf) (str : CStr) : ℕ × NameBuf :=
  match b.offsets.findIdx? fun offset => cstrAt b.buf offset == str with
  | some i => (i, b)
  | none => (b.offsets.length, ⟨b.buf ++ str ++ ['\x00'], b.offsets ++ [b.buf.length]⟩)

/-- The offset of a name that was added. -/
def NameBuf.offsetAt (b : NameBuf) (pos : ℕ) : ℕ := b.offsets.getD pos 0

/-- A name before its `@`, and the annotation after it. -/
def splitAnno (name : CStr) : CStr × Option CStr :=
  (name.takeWhile (· ≠ '@'),
    match name.dropWhile (· ≠ '@') with
    | [] => none
    | _ :: anno => some anno)

/-! ### What is being built -/

/-- An LP type with offsets (`config_lptype_t`); the offset of no annotation is `-1`. -/
structure TypeSlot where
  nameOffset : ℕ
  annoOffset : ℤ
  count : ℤ

/-- A group with offsets (`config_lpgroup_t`). -/
structure GroupSlot where
  nameOffset : ℕ
  repetitions : ℤ
  lptypes : List TypeSlot

/-- The annotations of an LP type (`config_anno_map_t`), by their offsets. -/
structure AnnoMap where
  lpNameOffset : ℕ
  hasUnannoLp : Bool
  isUnannoFirst : Bool
  annotations : List (ℤ × ℕ)

/-- The state of the first pass.  What is not yet written of the groups is zero, and the buffer for
values is not cleared between two of them. -/
structure Load where
  (groupNames lpNames annoNames : NameBuf)
  lpgroups : ℕ → GroupSlot
  lpgroupsCount : ℕ
  lpannos : List AnnoMap
  data : CStr

/-- How loading fails. -/
inductive LpError where
  /-- The section is missing, and `-1` is returned. -/
  | noSection
  /-- "bad value (expected positive integer)"; the field is named if it is no LP type. -/
  | badValue (field : Option String) (data : CStr)
  /-- "config error: non-unique group names detected". -/
  | nonUniqueGroups
  | assertion (text : String)
  deriving DecidableEq

/-- `CONFIGURATION_MAX_TYPES` and `CONFIGURATION_MAX_ANNOS`. -/
def maxTypes : ℕ := 10

/-- `check_add_anno`. -/
def checkAddAnno (annoOffset : ℤ) (map : AnnoMap) : Except LpError AnnoMap :=
  if annoOffset = -1 then
    .ok { map with
      hasUnannoLp := true
      isUnannoFirst := if map.annotations = [] then true else map.isUnannoFirst }
  else
    match map.annotations.findIdx? fun a => a.1 == annoOffset with
    | some a =>
      .ok { map with annotations := map.annotations.modify a fun x => (x.1, x.2 + 1) }
    | none =>
      if map.annotations.length < maxTypes then
        .ok { map with annotations := map.annotations ++ [(annoOffset, 1)] }
      else .error (.assertion "a < CONFIGURATION_MAX_ANNOS")

/-- `check_add_lp_type_anno`. -/
def checkAddLpTypeAnno (lpNameOffset : ℕ) (annoOffset : ℤ) (lpannos : List AnnoMap) :
    Except LpError (List AnnoMap) :=
  match lpannos.findIdx? fun map => map.lpNameOffset == lpNameOffset with
  | some i =>
    match checkAddAnno annoOffset (lpannos.getD i ⟨0, false, false, []⟩) with
    | .error e => .error e
    | .ok map => .ok (lpannos.set i map)
  | none =>
    if lpannos.length < maxTypes then
      match checkAddAnno annoOffset ⟨lpNameOffset, false, false, []⟩ with
      | .error e => .error e
      | .ok map => .ok (lpannos ++ [map])
    else .error (.assertion "lpt_anno < CONFIGURATION_MAX_TYPES")

/-! ### The first pass -/

/-- The annotation of an LP type is added: its offset and the buffer. -/
def addAnno (annoNames : NameBuf) : Option CStr → ℤ × NameBuf
  | none => (-1, annoNames)
  | some anno =>
    let pos := checkAddUniqStr annoNames anno
    (pos.2.offsetAt pos.1, pos.2)

/-- An entry `name` or `name@annotation` of a group. -/
def addLptype (name : CStr) (st : Load) (g : GroupSlot) : Except LpError (Load × GroupSlot) :=
  let r := addAnno st.annoNames (splitAnno name).2
  let pos := checkAddUniqStr st.lpNames (splitAnno name).1
  match checkAddLpTypeAnno (pos.2.offsetAt pos.1) r.1 st.lpannos with
  | .error e => .error e
  | .ok lpannos =>
    match checkedStrtol st.data with
    | none => .error (.badValue none st.data)
    | some count =>
      .ok ({ st with lpNames := pos.2, annoNames := r.2, lpannos := lpannos },
        { g with lptypes := g.lptypes ++ [⟨pos.2.offsetAt pos.1, r.1, count⟩] })

/-- The name of the key for repetitions. -/
def repetitionsKey : CStr := "repetitions"

/-- The body of the loop over the entries of a group. -/
def addEntry (subsh : List Entry) (e : SectionEntry) (st : Load) (g : GroupSlot) :
    Except LpError (Load × GroupSlot) :=
  if e.type = .key then
    -- a key that is not found leaves the buffer as it was
    let st :=
      match getKey subsh e.name 256 with
      | .error _ => st
      | .ok value => { st with data := value }
    if e.name = repetitionsKey then
      match checkedStrtol st.data with
      | none => .error (.badValue (some "repetitions") st.data)
      | some n => .ok (st, { g with repetitions := n })
    else addLptype e.name st g
  else .ok (st, g)

/-- The loop over the entries of a group. -/
def addEntries (subsh : List Entry) :
    List SectionEntry → Load → GroupSlot → Except LpError (Load × GroupSlot)
  | [], st, g => .ok (st, g)
  | e :: es, st, g =>
    match addEntry subsh e st g with
    | .error err => .error err
    | .ok (st, g) => addEntries subsh es st g

/-- A group, which is the entry of the listing with an index. -/
def addGroup (root sh : List Entry) (i : ℕ) (name : CStr) (st : Load) : Except LpError Load :=
  -- no section is the root
  let subsh := (openSection sh name).getD root
  let pos := checkAddUniqStr st.groupNames name
  if pos.2.offsets.length ≠ st.lpgroupsCount + 1 then .error .nonUniqueGroups
  else
    match addEntries subsh (listSection subsh 10) st ⟨pos.2.offsetAt pos.1, 1, []⟩ with
    | .error e => .error e
    | .ok (st, g) =>
      .ok { st with
        groupNames := pos.2
        lpgroups := Function.update st.lpgroups i g
        lpgroupsCount := st.lpgroupsCount + 1 }

/-- The loop over the listing. -/
def addGroups (root sh : List Entry) : ℕ → List SectionEntry → Load → Except LpError Load
  | _, [], st => .ok st
  | i, e :: es, st =>
    if e.type = .subsection then
      match addGroup root sh i e.name st with
      | .error err => .error err
      | .ok st => addGroups root sh (i + 1) es st
    else addGroups root sh (i + 1) es st

/-! ### The second pass -/

/-- An LP type of the result. -/
structure LoadedType where
  name : CStr
  anno : Option CStr
  count : ℤ
  deriving DecidableEq

/-- A group of the result. -/
structure LoadedGroup where
  name : CStr
  repetitions : ℤ
  lptypes : List LoadedType
  deriving DecidableEq

/-- The annotations of an LP type of the result. -/
structure LoadedAnnoMap where
  lpName : CStr
  hasUnannoLp : Bool
  isUnannoFirst : Bool
  annotations : List (CStr × ℕ)
  deriving DecidableEq

/-- The result (`config_lpgroups_t`). -/
structure LoadedConf where
  lpgroups : List LoadedGroup
  lpannos : List LoadedAnnoMap
  deriving DecidableEq

/-- The annotation at an offset. -/
def annoAt (annoNames : NameBuf) (annoOffset : ℤ) : Option CStr :=
  if annoOffset = -1 then none else some (cstrAt annoNames.buf annoOffset.toNat)

/-- Offsets become strings. -/
def TypeSlot.loaded (lpNames annoNames : NameBuf) (t : TypeSlot) : LoadedType :=
  ⟨cstrAt lpNames.buf t.nameOffset, annoAt annoNames t.annoOffset, t.count⟩

/-- Offsets become strings. -/
def GroupSlot.loaded (st : Load) (g : GroupSlot) : LoadedGroup :=
  ⟨cstrAt st.groupNames.buf g.nameOffset, g.repetitions,
    g.lptypes.map (TypeSlot.loaded st.lpNames st.annoNames)⟩

/-- Offsets become strings. -/
def AnnoMap.loaded (st : Load) (map : AnnoMap) : LoadedAnnoMap :=
  ⟨cstrAt st.lpNames.buf map.lpNameOffset, map.hasUnannoLp, map.isUnannoFirst,
    map.annotations.map fun a => (cstrAt st.annoNames.buf a.1.toNat, a.2)⟩

/-- The second pass, over the groups that were counted. -/
def Load.finish (st : Load) : LoadedConf :=
  ⟨(List.range st.lpgroupsCount).map fun g => (st.lpgroups g).loaded st,
    st.lpannos.map (AnnoMap.loaded st)⟩

/-- The state before the first pass; `data` is what the buffer holds. -/
def Load.start (data : CStr) : Load :=
  ⟨⟨[], []⟩, ⟨[], []⟩, ⟨[], []⟩, fun _ => ⟨0, 0, []⟩, 0, [], data⟩

/-- `configuration_get_lpgroups`. -/
def configurationGetLpgroups (root : List Entry) (sectionName data : CStr) :
    Except LpError LoadedConf :=
  match openSection root sectionName with
  | none => .error .noSection
  | some sh =>
    match addGroups root sh 0 (listSection sh 10) (.start data) with
    | .error e => .error e
    | .ok st => .ok st.finish

end CodesSim.Config
