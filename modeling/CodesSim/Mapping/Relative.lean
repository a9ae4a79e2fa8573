import CodesSim.Mapping.RoundTrip
import Mathlib.Data.Nat.Count
import Mathlib.Tactic.Ring

/-!
# Relative LP ids

An LP has a relative id among the LPs of its type: in its group or in all groups, and with its
annotation or with any.  One function counts the LPs before an LP (`getLpRelativeId`), the other
looks for the LP with a relative id (`getLpidFromRelative`).

* `lpsOf` lists the groups and types of all LPs in the order of their ids; the relative id of an LP
  is the number of LPs before it that match it (`relativeId_slot`).
* `relative_round_trip` says that the functions are inverse to each other and that the relative
  ids of the LPs with one identity are the numbers below their number, in the order of the LPs.
-/

namespace CodesSim

namespace CodesMapping

/-! ### The functions of the source -/

/-- The test of an entry of a group that all loops over entries make. -/
def entryMatches (lpTypeName : String) (anno : Option String) (annotationWise : Bool)
    (lpt : LpType) : Bool :=
  lpTypeName == lpt.name && (!annotationWise || cmpAnno anno lpt.anno)

/-- The LPs of the entries that pass a test, in one repetition. -/
def countLps (test : LpType → Bool) (ts : List LpType) : ℤ :=
  ts.foldl (fun n lpt => if test lpt then wrapInt (n + lpt.count) else n) 0

/-- `codes_mapping_get_lp_relative_id`. -/
def getLpRelativeId (conf : LpConf) (gid : Lpid) (groupWise annotationWise : Bool) :
    Except String ℤ :=
  (getLpInfo conf gid).map fun i =>
    let anno := if i.anno = "" then none else some i.anno
    let test := entryMatches i.lpTypeName anno annotationWise
    let groupLpCount := if groupWise then 0 else
      (conf.take i.groupIndex).foldl
        (fun n lpg => wrapInt (n + wrapInt (countLps test lpg.lptypes * lpg.repetitions))) 0
    let lptypes := match conf[i.groupIndex]? with
      | some lpg => lpg.lptypes
      | none => []
    let lpCount := countLps test lptypes
    let lpPreCount := countLps test (lptypes.take i.lpTypeIndex)
    wrapInt (groupLpCount + lpCount * i.repId + lpPreCount + i.offset)

/-- Why there is no LP with a relative id. -/
inductive RelativeError where
  | notFound (text : String)
  | divisionByZero
  deriving DecidableEq

/-- The text of the failure of `getLpidFromRelative`. -/
def relativeError (relativeId : ℤ) (groupName : Option String) (lpTypeName : String)
    (anno : Option String) (annotationWise : Bool) : RelativeError :=
  .notFound ("Unable to find LP-ID for ID " ++ toString relativeId ++ " relative to group " ++
    groupName.getD "(all)" ++ ", lp name " ++ lpTypeName ++ ", annotation " ++
    if annotationWise then anno.getD "(null)" else "(all)")

/-- The scan over the entries of the group that holds the relative id. -/
def relativeInGroup (test : LpType → Bool) : ℤ → Lpid → List LpType → Option Lpid
  | _, _, [] => none
  | rem, gid, lpt :: ts =>
    if test lpt then
      if rem < lpt.count then some (gid + ofInt rem)
      else relativeInGroup test (wrapInt (rem - lpt.count)) (gid + UInt64.ofNat lpt.count) ts
    else relativeInGroup test rem (gid + UInt64.ofNat lpt.count) ts

/-- The scan over the groups; `none` is a division by zero, `some none` an id that is not found. -/
def relativeScan (relativeId : ℤ) (groupName : Option String) (test : LpType → Bool) :
    ℤ → Lpid → LpConf → Option (Option Lpid)
  | _, _, [] => some none
  | relIdCount, gidCount, lpg :: gs =>
    let localGidCount := repCount lpg
    let inGroups := localGidCount * UInt64.ofNat lpg.repetitions
    if groupName = none ∨ groupName = some lpg.name then
      let localRelIdCount := countLps test lpg.lptypes
      let relInGroup := wrapInt (localRelIdCount * lpg.repetitions)
      if relativeId < wrapInt (relIdCount + relInGroup) then
        let rem := wrapInt (relativeId - relIdCount)
        if localRelIdCount = 0 then none
        else
          let rep := Int.tdiv rem localRelIdCount
          some (relativeInGroup test (wrapInt (rem - rep * localRelIdCount))
            (gidCount + localGidCount * ofInt rep) lpg.lptypes)
      else if groupName ≠ none then some none
      else
        relativeScan relativeId groupName test (wrapInt (relIdCount + relInGroup))
          (gidCount + inGroups) gs
    else relativeScan relativeId groupName test relIdCount (gidCount + inGroups) gs

/-- `codes_mapping_get_lpid_from_relative`. -/
def getLpidFromRelative (conf : LpConf) (relativeId : ℤ) (groupName : Option String)
    (lpTypeName : String) (anno : Option String) (annotationWise : Bool) :
    Except RelativeError Lpid :=
  match relativeScan relativeId groupName (entryMatches lpTypeName anno annotationWise) 0 0
      conf with
  | some (some gid) => .ok gid
  | some none => .error (relativeError relativeId groupName lpTypeName anno annotationWise)
  | none => .error .divisionByZero

end CodesMapping

/-! ### All LPs in the order of their ids -/

/-- The LPs of one repetition of a group, by their types. -/
def lpsOfTypes (g : LpGroup) (ts : List LpType) : List (LpGroup × LpType) :=
  ts.flatMap fun t => List.replicate t.count (g, t)

/-- The LPs of some repetitions of a group. -/
def lpsOfReps (g : LpGroup) (n : ℕ) : List (LpGroup × LpType) :=
  (List.replicate n (lpsOfTypes g g.lptypes)).flatten

/-- The groups and types of all LPs. -/
def lpsOf (conf : LpConf) : List (LpGroup × LpType) := conf.flatMap fun g =>
    lpsOfReps g g.repetitions

@[simp] theorem length_lpsOfTypes (g : LpGroup) (ts : List LpType) :
    (lpsOfTypes g ts).length = lpCount ts := by
  simp [lpsOfTypes, List.length_flatMap, lpCount]

@[simp] theorem length_lpsOfReps (g : LpGroup) (n : ℕ) :
    (lpsOfReps g n).length = n * g.perRep := by
  simp [lpsOfReps, LpGroup.perRep]

@[simp] theorem length_lpsOf (conf : LpConf) : (lpsOf conf).length = totalLps conf := by
  simp [lpsOf, List.length_flatMap, totalLps]
  rfl

/-- The LPs before an LP. -/
def Slot.before {conf : LpConf} (s : Slot conf) : List (LpGroup × LpType) :=
  lpsOf s.pre ++ (lpsOfReps s.grp s.rep ++
    (lpsOfTypes s.grp s.tpre ++ List.replicate s.off (s.grp, s.lpt)))

theorem Slot.length_before {conf : LpConf} (s : Slot conf) : s.before.length = s.gid := by
  simp [Slot.before, Slot.gid, Slot.inRep, Nat.mul_comm s.rep, Nat.add_assoc]

theorem Slot.lpsOf_eq {conf : LpConf} (s : Slot conf) :
    ∃ rest, lpsOf conf = s.before ++ (s.grp, s.lpt) :: rest := by
  have hoff : List.replicate s.lpt.count (s.grp, s.lpt) = List.replicate s.off (s.grp, s.lpt) ++
      (s.grp, s.lpt) :: List.replicate (s.lpt.count - s.off - 1) (s.grp, s.lpt) := by
    have hsum : s.lpt.count = s.off + (s.lpt.count - s.off - 1 + 1) := by
      have := s.off_lt
      omega
    conv_lhs => rw [hsum, List.replicate_add, List.replicate_succ]
  have hrep : lpsOfReps s.grp s.grp.repetitions = lpsOfReps s.grp s.rep ++
      (lpsOfTypes s.grp s.grp.lptypes ++ lpsOfReps s.grp (s.grp.repetitions - s.rep - 1)) := by
    have hsum : s.grp.repetitions = s.rep + (1 + (s.grp.repetitions - s.rep - 1)) := by
      have := s.rep_lt
      omega
    conv_lhs => rw [hsum]
    simp [lpsOfReps, List.replicate_add]
  have htypes : lpsOfTypes s.grp s.grp.lptypes = lpsOfTypes s.grp s.tpre ++
      (List.replicate s.lpt.count (s.grp, s.lpt) ++ lpsOfTypes s.grp s.tpost) := by
    rw [s.types_eq]
    simp [lpsOfTypes]
  have hconf : lpsOf conf = lpsOf s.pre ++ (lpsOfReps s.grp s.grp.repetitions ++ lpsOf s.post) := by
    conv_lhs => rw [s.conf_eq]
    simp [lpsOf]
  refine ⟨List.replicate (s.lpt.count - s.off - 1) (s.grp, s.lpt) ++ (lpsOfTypes s.grp s.tpost ++
    (lpsOfReps s.grp (s.grp.repetitions - s.rep - 1) ++ lpsOf s.post)), ?_⟩
  rw [hconf, hrep, htypes, hoff, Slot.before]
  simp only [List.append_assoc, List.cons_append]

namespace CodesMapping

/-! ### Counts -/

/-- The LPs of the entries that pass a test, in one repetition. -/
def matchCount (test : LpType → Bool) (ts : List LpType) : ℕ :=
  (ts.map fun t => if test t then t.count else 0).sum

section

variable (test : LpType → Bool)

@[simp] theorem matchCount_nil : matchCount test [] = 0 := rfl

@[simp] theorem matchCount_cons (t : LpType) (ts : List LpType) :
    matchCount test (t :: ts) = (if test t then t.count else 0) + matchCount test ts := by
  simp [matchCount]

@[simp] theorem matchCount_append (ts us : List LpType) :
    matchCount test (ts ++ us) = matchCount test ts + matchCount test us := by
  simp [matchCount]

theorem foldl_countLps (ts : List LpType) (n : ℤ) :
    ts.foldl (fun n lpt => if test lpt then wrapInt (n + lpt.count) else n) (wrapInt n) =
      wrapInt (n + matchCount test ts) := by
  induction ts generalizing n with
  | nil => simp
  | cons t ts ih =>
    rw [List.foldl_cons, matchCount_cons]
    split
    · have hwrap : wrapInt (wrapInt n + t.count) = wrapInt (n + t.count) := Int.bmod_add_bmod
      rw [hwrap, ih]
      push_cast
      rw [Int.add_assoc]
    · rw [ih]
      simp

theorem countLps_eq (ts : List LpType) : countLps test ts = wrapInt (matchCount test ts) := by
  have h := foldl_countLps test ts 0
  rwa [Int.zero_add] at h

/-- The LPs of some groups whose entries pass a test. -/
def groupsCount (gs : LpConf) : ℕ := (gs.map fun g => g.repetitions * matchCount test g.lptypes).sum

@[simp] theorem groupsCount_cons (g : LpGroup) (gs : LpConf) : groupsCount test (g :: gs) =
    g.repetitions * matchCount test g.lptypes + groupsCount test gs := by
  simp [groupsCount]

theorem wrapInt_add_wrapInt (a b : ℤ) : wrapInt (a + wrapInt b) = wrapInt (a + b) :=
  Int.add_bmod_bmod

theorem wrapInt_wrapInt_mul (a b : ℤ) : wrapInt (wrapInt a * b) = wrapInt (a * b) :=
  Int.bmod_mul_bmod

theorem wrapInt_wrapInt_add (a b : ℤ) : wrapInt (wrapInt a + b) = wrapInt (a + b) :=
  Int.bmod_add_bmod

theorem wrapInt_sum (g m r t o : ℤ) :
    wrapInt (wrapInt g + wrapInt m * r + wrapInt t + o) = wrapInt (g + m * r + t + o) := by
  have hwrap : ∀ x : ℤ, wrapInt x = x - (2 ^ 32 : ℕ) * x.bdiv (2 ^ 32) :=
    fun x => Int.bmod_eq_self_sub_mul_bdiv x (2 ^ 32)
  have hsum : wrapInt g + wrapInt m * r + wrapInt t + o = g + m * r + t + o + (2 ^ 32 : ℕ) *
      (-g.bdiv (2 ^ 32) - m.bdiv (2 ^ 32) * r - t.bdiv (2 ^ 32)) := by
    rw [hwrap g, hwrap m, hwrap t]
    ring
  rw [hsum]
  exact Int.add_mul_bmod_self_left _ _ _

theorem foldl_groups (gs : LpConf) (n : ℤ) :
    gs.foldl (fun n lpg => wrapInt (n + wrapInt (countLps test lpg.lptypes * lpg.repetitions)))
      (wrapInt n) = wrapInt (n + groupsCount test gs) := by
  induction gs generalizing n with
  | nil => simp [groupsCount]
  | cons g gs ih =>
    have hstep : wrapInt (wrapInt n + wrapInt (countLps test g.lptypes * g.repetitions)) =
        wrapInt (n + (g.repetitions * matchCount test g.lptypes : ℕ)) := by
      rw [wrapInt_add_wrapInt, wrapInt_wrapInt_add, countLps_eq, ← wrapInt_add_wrapInt,
        wrapInt_wrapInt_mul, wrapInt_add_wrapInt]
      push_cast
      rw [Int.mul_comm]
    rw [List.foldl_cons, hstep, ih, groupsCount_cons]
    push_cast
    rw [Int.add_assoc]

end

/-! ### The number of an LP among those that match -/

theorem countP_lpsOfTypes (test : LpType → Bool) (g : LpGroup) (ts : List LpType) :
    (lpsOfTypes g ts).countP (fun x => test x.2) = matchCount test ts := by
  induction ts with
  | nil => rfl
  | cons t ts ih =>
    have hcons : lpsOfTypes g (t :: ts) = List.replicate t.count (g, t) ++ lpsOfTypes g ts := by
      simp [lpsOfTypes]
    rw [hcons, List.countP_append, ih, List.countP_replicate, matchCount_cons]

theorem countP_lpsOfReps (test : LpType → Bool) (g : LpGroup) (n : ℕ) :
    (lpsOfReps g n).countP (fun x => test x.2) = n * matchCount test g.lptypes := by
  simp [lpsOfReps, List.countP_flatten, countP_lpsOfTypes]

theorem countP_lpsOf (test : LpType → Bool) (gs : LpConf) :
    (lpsOf gs).countP (fun x => test x.2) = groupsCount test gs := by
  simp [lpsOf, List.countP_flatMap, groupsCount, Function.comp_def, countP_lpsOfReps]

/-- The groups among which LPs are numbered: one or all. -/
def inGroups (groupName : Option String) (g : LpGroup) : Bool := groupName.all (· == g.name)

/-- An LP is one of those that are numbered. -/
def keeps (groupName : Option String) (test : LpType → Bool) (x : LpGroup × LpType) : Bool :=
  inGroups groupName x.1 && test x.2

/-- The group name that a lookup in `g` is made with. -/
def scope (groupWise : Bool) (g : LpGroup) : Option String :=
    if groupWise then some g.name else none

@[simp] theorem inGroups_scope (groupWise : Bool) (g : LpGroup) :
    inGroups (scope groupWise g) g = true := by
  cases groupWise <;> simp [inGroups, scope]

variable {groupName : Option String} {g : LpGroup}

theorem countP_keeps_types
    (h : inGroups groupName g = true) (test : LpType → Bool) (ts : List LpType) :
    (lpsOfTypes g ts).countP (keeps groupName test) = matchCount test ts := by
  rw [← countP_lpsOfTypes test g]
  refine List.countP_congr fun x hx => ?_
  obtain ⟨t, -, hx⟩ := List.mem_flatMap.1 hx
  rw [(List.mem_replicate.1 hx).2]
  simp [keeps, h]

theorem countP_keeps_reps (h : inGroups groupName g = true) (test : LpType → Bool) (n : ℕ) :
    (lpsOfReps g n).countP (keeps groupName test) = n * matchCount test g.lptypes := by
  simp [lpsOfReps, List.countP_flatten, countP_keeps_types h]

theorem countP_keeps_reps_of_not (h : inGroups groupName g = false) (test : LpType → Bool) (n : ℕ) :
    (lpsOfReps g n).countP (keeps groupName test) = 0 := by
  rw [List.countP_eq_zero]
  intro x hx
  obtain ⟨l, hl, hx⟩ := List.mem_flatten.1 hx
  rw [(List.mem_replicate.1 hl).2] at hx
  obtain ⟨t, -, hx⟩ := List.mem_flatMap.1 hx
  rw [(List.mem_replicate.1 hx).2]
  simp [keeps, h]

theorem countP_keeps_pre (groupWise : Bool) (test : LpType → Bool) {pre : LpConf}
    (h : ∀ g' ∈ pre, g'.name ≠ g.name) : (lpsOf pre).countP (keeps (scope groupWise g) test) =
      if groupWise then 0 else groupsCount test pre := by
  cases groupWise with
  | false =>
    rw [if_neg (by decide), ← countP_lpsOf]
    exact List.countP_congr fun x _ => by simp [keeps, inGroups, scope]
  | true =>
    rw [if_pos rfl, List.countP_eq_zero]
    intro x hx
    obtain ⟨g', hg', hx⟩ := List.mem_flatMap.1 hx
    have hne : inGroups (scope true g) g' = false := by
      simp [inGroups, scope, Ne.symm (h g' hg')]
    have hzero := countP_keeps_reps_of_not hne test g'.repetitions
    exact List.countP_eq_zero.1 hzero x hx

variable {conf : LpConf}

/-- The test for the LPs with the type, and perhaps the annotation, of an LP. -/
def testOf (s : Slot conf) (annotationWise : Bool) : LpType → Bool :=
  entryMatches s.lpt.name s.lpt.anno annotationWise

theorem countP_before (h : conf.Positive) (s : Slot conf) (groupWise : Bool) (test : LpType → Bool)
    (ht : test s.lpt = true) : s.before.countP (keeps (scope groupWise s.grp) test) =
      (if groupWise then 0 else groupsCount test s.pre) + s.rep * matchCount test s.grp.lptypes +
        matchCount test s.tpre + s.off := by
  have hself : keeps (scope groupWise s.grp) test (s.grp, s.lpt) = true := by simp [keeps, ht]
  rw [Slot.before, List.countP_append, List.countP_append, List.countP_append,
    countP_keeps_pre groupWise test (names_pre h s), countP_keeps_reps (inGroups_scope _ _),
    countP_keeps_types (inGroups_scope _ _), List.countP_replicate, if_pos hself]
  omega

/-- **The relative id of an LP is the number of the LPs before it that match.** -/
theorem getLpRelativeId_slot (h : conf.Positive) (hbound : totalLps conf < 2 ^ 64) (s : Slot conf)
    (hanno : s.lpt.anno ≠ some "") (groupWise annotationWise : Bool) :
    getLpRelativeId conf (UInt64.ofNat s.gid) groupWise annotationWise = .ok
      (wrapInt (s.before.countP (keeps (scope groupWise s.grp) (testOf s annotationWise)))) := by
  have hself : testOf s annotationWise s.lpt = true := by simp [testOf, entryMatches, cmpAnno]
  have hbuf : (if annoBuf s.lpt.anno = "" then none else some (annoBuf s.lpt.anno)) =
    s.lpt.anno := by
    cases ha : s.lpt.anno with
    | none => rfl
    | some a =>
      have hne : a ≠ "" := fun he => hanno (by rw [ha, he])
      simp [annoBuf, hne]
  have htake : conf.take s.pre.length = s.pre :=
    (congrArg (List.take s.pre.length) s.conf_eq).trans (by simp)
  have hget : conf[s.pre.length]? = some s.grp :=
    (congrArg (fun cf : LpConf => cf[s.pre.length]?) s.conf_eq).trans (by simp)
  have htypes : s.grp.lptypes.take s.tpre.length = s.tpre := by
    rw [s.types_eq]
    simp
  rw [countP_before h s groupWise _ hself, getLpRelativeId, (getLpInfo_slot h hbound s).2]
  simp only [Except.map, hbuf, htake, hget, htypes]
  refine congrArg Except.ok ?_
  have hgroups := foldl_groups (testOf s annotationWise) s.pre 0
  rw [Int.zero_add] at hgroups
  rw [← testOf, countLps_eq, countLps_eq]
  cases groupWise with
  | true =>
    simp only [if_true]
    rw [show (0 : ℤ) = wrapInt 0 from rfl, wrapInt_sum]
    push_cast
    congr 1
    ring
  | false =>
    simp only [Bool.false_eq_true, if_false]
    rw [show (0 : ℤ) = wrapInt 0 from rfl, hgroups, wrapInt_sum]
    push_cast
    congr 1
    ring

/-! ### The LP with a number -/

/-- The scan over the entries ends at the entry that holds the number. -/
theorem relativeInGroup_append (test : LpType → Bool) (tpre : List LpType) (lpt : LpType)
    (tpost : List LpType) (off g : ℕ) (ht : test lpt = true) (hoff : off < lpt.count)
    (hint : matchCount test tpre + off < 2 ^ 31) :
    relativeInGroup test (matchCount test tpre + off : ℕ) (UInt64.ofNat g) (tpre ++ lpt :: tpost) =
      some (UInt64.ofNat (g + (lpCount tpre + off))) := by
  induction tpre generalizing g with
  | nil =>
    rw [List.nil_append, relativeInGroup, if_pos ht, matchCount_nil, Nat.zero_add,
      if_pos (by exact_mod_cast hoff), ofInt_natCast, ← UInt64.ofNat_add, lpCount_nil, Nat.zero_add]
  | cons t tpre ih =>
    rw [List.cons_append, relativeInGroup, lpCount_cons]
    by_cases htest : test t = true
    · have hcount : matchCount test (t :: tpre) = t.count + matchCount test tpre := by
        rw [matchCount_cons, if_pos htest]
      rw [hcount] at hint ⊢
      have hge : ¬ ((t.count + matchCount test tpre + off : ℕ) : ℤ) < t.count := by
        push_cast
        omega
      have hrem : ((t.count + matchCount test tpre + off : ℕ) : ℤ) - t.count =
          (matchCount test tpre + off : ℕ) := by
        push_cast
        ring
      rw [if_pos htest, if_neg hge, hrem, wrapInt_natCast (by omega), ← UInt64.ofNat_add,
        ih _ (by omega), Nat.add_assoc g, Nat.add_assoc t.count]
    · have hcount : matchCount test (t :: tpre) = matchCount test tpre := by
        rw [matchCount_cons, if_neg htest, Nat.zero_add]
      rw [hcount] at hint ⊢
      rw [if_neg htest, ← UInt64.ofNat_add, ih _ hint, Nat.add_assoc g, Nat.add_assoc t.count]

/-- The numbered LPs in the groups before a group. -/
def preCount (groupWise : Bool) (test : LpType → Bool) (pre : LpConf) : ℕ :=
  if groupWise then 0 else groupsCount test pre

theorem repCount_mul (g : LpGroup) :
    repCount g * UInt64.ofNat g.repetitions = UInt64.ofNat g.size := by
  rw [repCount_eq, ← UInt64.ofNat_mul, LpGroup.size, Nat.mul_comm]

theorem relativeScan_append (groupWise : Bool) (test : LpType → Bool) (pre : LpConf) (grp : LpGroup)
    (post : LpConf) (tpre : List LpType) (lpt : LpType) (tpost : List LpType)
    (rep off relC gidC : ℕ)
    (hne : ∀ g ∈ pre, g.name ≠ grp.name) (htypes : grp.lptypes = tpre ++ lpt :: tpost)
    (ht : test lpt = true) (hrep : rep < grp.repetitions) (hoff : off < lpt.count)
    (hint : relC + preCount groupWise test pre +
      grp.repetitions * matchCount test grp.lptypes < 2 ^ 31) :
    relativeScan (relC + preCount groupWise test pre + rep * matchCount test grp.lptypes +
        matchCount test tpre + off : ℕ) (scope groupWise grp) test relC (UInt64.ofNat gidC)
        (pre ++ grp :: post) =
      some (some
        (UInt64.ofNat (gidC + totalLps pre + grp.perRep * rep + (lpCount tpre + off)))) := by
  induction pre generalizing relC gidC with
  | nil =>
    have hpre : preCount groupWise test [] = 0 := by cases groupWise <;> rfl
    have hin : scope groupWise grp = none ∨ scope groupWise grp = some grp.name := by
      cases groupWise <;> simp [scope]
    rw [hpre, Nat.add_zero] at hint ⊢
    generalize hm : matchCount test grp.lptypes = m at hint ⊢
    have hmt : matchCount test tpre + off < m := by
      rw [← hm, htypes, matchCount_append, matchCount_cons, if_pos ht]
      omega
    have hreps : (rep + 1) * m ≤ grp.repetitions * m := Nat.mul_le_mul_right m hrep
    rw [Nat.add_mul, Nat.one_mul] at hreps
    have hle : m ≤ grp.repetitions * m := Nat.le_mul_of_pos_left m (by omega)
    have hm31 : m < 2 ^ 31 := by omega
    have hsize31 : grp.repetitions * m < 2 ^ 31 := by omega
    have hoff31 : matchCount test tpre + off < 2 ^ 31 := by omega
    have hlt : relC + rep * m + matchCount test tpre + off < relC + grp.repetitions * m := by omega
    have hrem31 : rep * m + (matchCount test tpre + off) < 2 ^ 31 := by omega
    have hquot : (rep * m + (matchCount test tpre + off)) / m = rep := by
      rw [Nat.mul_comm rep, Nat.mul_add_div (by omega), Nat.div_eq_of_lt hmt, Nat.add_zero]
    have hne0 : (m : ℤ) ≠ 0 := by omega
    have hcount : countLps test grp.lptypes = m := by rw [countLps_eq, hm, wrapInt_natCast hm31]
    have hgroup : wrapInt ((m : ℤ) * grp.repetitions) = (grp.repetitions * m : ℕ) := by
      rw [Int.mul_comm, ← Int.natCast_mul, wrapInt_natCast hsize31]
    have hbound : wrapInt ((relC : ℤ) + (grp.repetitions * m : ℕ)) =
        (relC + grp.repetitions * m : ℕ) := by
      rw [← Int.natCast_add, wrapInt_natCast hint]
    have hlt' : ((relC + rep * m + matchCount test tpre + off : ℕ) : ℤ) <
        (relC + grp.repetitions * m : ℕ) := Int.ofNat_lt.2 hlt
    have hrem : wrapInt (((relC + rep * m + matchCount test tpre + off : ℕ) : ℤ) - relC) =
        (rep * m + (matchCount test tpre + off) : ℕ) := by
      have hsub : ((relC + rep * m + matchCount test tpre + off : ℕ) : ℤ) - relC =
          (rep * m + (matchCount test tpre + off) : ℕ) := by
        push_cast
        ring
      rw [hsub, wrapInt_natCast hrem31]
    have hdiv : Int.tdiv ((rep * m + (matchCount test tpre + off) : ℕ) : ℤ) m = rep := by
      rw [← Int.ofNat_tdiv, hquot]
    have hrest : wrapInt (((rep * m + (matchCount test tpre + off) : ℕ) : ℤ) - rep * m) =
        (matchCount test tpre + off : ℕ) := by
      have hsub : ((rep * m + (matchCount test tpre + off) : ℕ) : ℤ) - rep * m =
          (matchCount test tpre + off : ℕ) := by
        push_cast
        ring
      rw [hsub, wrapInt_natCast hoff31]
    rw [List.nil_append, relativeScan, if_pos hin]
    simp only [hcount, hgroup, hbound, if_pos hlt', hrem, if_neg hne0, hdiv, hrest]
    rw [repCount_eq, ofInt_natCast, ← UInt64.ofNat_mul, ← UInt64.ofNat_add, htypes,
      relativeInGroup_append test tpre lpt tpost off _ ht hoff hoff31, totalLps_nil, Nat.add_zero]
  | cons g pre ih =>
    have hne' : ∀ g' ∈ pre, g'.name ≠ grp.name := fun g' hg' => hne g' (List.mem_cons_of_mem g hg')
    rw [List.cons_append, relativeScan, totalLps_cons]
    cases groupWise with
    | true =>
      -- the groups with other names are only counted
      have hother : ¬ (scope true grp = none ∨ scope true grp = some g.name) := by
        simp [scope, Ne.symm (hne g List.mem_cons_self)]
      have hpre : preCount true test (g :: pre) = preCount true test pre := rfl
      rw [hpre] at hint ⊢
      rw [if_neg hother]
      simp only [repCount_mul]
      rw [← UInt64.ofNat_add, ih _ _ hne' hint]
      refine congrArg (fun n => some (some (UInt64.ofNat n))) ?_
      omega
    | false =>
      have hpre : preCount false test (g :: pre) =
          g.repetitions * matchCount test g.lptypes + preCount false test pre := by
        simp [preCount]
      rw [hpre] at hint ⊢
      generalize hm : matchCount test g.lptypes = m at hint ⊢
      have hsize31 : g.repetitions * m < 2 ^ 31 := by omega
      have hsum31 : relC + g.repetitions * m < 2 ^ 31 := by omega
      have hge : relC + g.repetitions * m ≤ relC + (g.repetitions * m + preCount false test pre) +
          rep * matchCount test grp.lptypes + matchCount test tpre + off := by omega
      have hrel : relC + (g.repetitions * m + preCount false test pre) +
          rep * matchCount test grp.lptypes + matchCount test tpre + off =
          relC + g.repetitions * m + preCount false test pre +
            rep * matchCount test grp.lptypes + matchCount test tpre + off := by omega
      have hint' : relC + g.repetitions * m + preCount false test pre +
          grp.repetitions * matchCount test grp.lptypes < 2 ^ 31 := by omega
      have hgroup : wrapInt (countLps test g.lptypes * g.repetitions) =
        (g.repetitions * m : ℕ) := by
        rw [countLps_eq, hm, wrapInt_wrapInt_mul, Int.mul_comm, ← Int.natCast_mul,
          wrapInt_natCast hsize31]
      have hbound : wrapInt ((relC : ℤ) + (g.repetitions * m : ℕ)) =
          (relC + g.repetitions * m : ℕ) := by
        rw [← Int.natCast_add, wrapInt_natCast hsum31]
      have hnot := Int.not_lt.2 (Int.ofNat_le.2 hge)
      rw [if_pos (.inl rfl)]
      simp only [hgroup, hbound, if_neg hnot, repCount_mul]
      rw [if_neg (by simp [scope]), ← UInt64.ofNat_add, hrel, ih _ _ hne' hint']
      refine congrArg (fun n => some (some (UInt64.ofNat n))) ?_
      omega

/-- **The LP with the number of an LP is that LP.** -/
theorem getLpidFromRelative_slot (h : conf.Positive) (s : Slot conf)
    (groupWise annotationWise : Bool)
    (hint : (lpsOf conf).countP
      (keeps (scope groupWise s.grp) (testOf s annotationWise)) < 2 ^ 31) :
    getLpidFromRelative conf
      (s.before.countP (keeps (scope groupWise s.grp) (testOf s annotationWise)) : ℕ)
      (scope groupWise s.grp) s.lpt.name s.lpt.anno annotationWise = .ok (UInt64.ofNat s.gid) := by
  have hself : testOf s annotationWise s.lpt = true := by simp [testOf, entryMatches, cmpAnno]
  have hcount := countP_before h s groupWise _ hself
  have htotal : preCount groupWise (testOf s annotationWise) s.pre +
      s.grp.repetitions * matchCount (testOf s annotationWise) s.grp.lptypes ≤
        (lpsOf conf).countP (keeps (scope groupWise s.grp) (testOf s annotationWise)) := by
    have hconf : lpsOf conf =
        lpsOf s.pre ++ (lpsOfReps s.grp s.grp.repetitions ++ lpsOf s.post) :=
      (congrArg lpsOf s.conf_eq).trans (by simp [lpsOf])
    rw [hconf, List.countP_append, List.countP_append,
      countP_keeps_pre groupWise _ (names_pre h s),
      countP_keeps_reps (inGroups_scope _ _), preCount]
    omega
  have hscan := relativeScan_append groupWise (testOf s annotationWise) s.pre s.grp s.post s.tpre
    s.lpt s.tpost s.rep s.off 0 0 (names_pre h s) s.types_eq hself s.rep_lt s.off_lt (by omega)
  rw [← s.conf_eq, Nat.zero_add, Nat.zero_add] at hscan
  change relativeScan _ _ _ 0 0 conf = _ at hscan
  rw [hcount, getLpidFromRelative, ← testOf]
  rw [preCount] at hscan
  rw [hscan]
  simp [Slot.gid, Slot.inRep]

/-! ### The round trip -/

/-- Two LPs have the same type and, if these are compared, group and annotation. -/
def SameIdentity (groupWise annotationWise : Bool) (i j : LpInfo2) : Prop :=
  (groupWise = true → i.groupName = j.groupName) ∧ i.lpTypeName = j.lpTypeName ∧
    (annotationWise = true → i.anno = j.anno)

instance (groupWise annotationWise : Bool) (i j : LpInfo2) :
    Decidable (SameIdentity groupWise annotationWise i j) := inferInstanceAs (Decidable (_ ∧ _ ∧ _))

/-- The LP with id `k` has the identity `i`. -/
def hasIdentity (conf : LpConf) (groupWise annotationWise : Bool) (i : LpInfo2) (k : ℕ) : Bool :=
  match getLpInfo2 conf (UInt64.ofNat k) with
  | .ok j => decide (SameIdentity groupWise annotationWise i j)
  | .error _ => false

/-- The number of LPs below `n` with the identity `i`. -/
def identityCount (conf : LpConf) (groupWise annotationWise : Bool) (i : LpInfo2) (n : ℕ) : ℕ :=
  Nat.count (fun k => hasIdentity conf groupWise annotationWise i k = true) n

theorem identityCount_congr (conf : LpConf) {groupWise annotationWise : Bool} {i j : LpInfo2}
    (h : SameIdentity groupWise annotationWise i j) (n : ℕ) :
    identityCount conf groupWise annotationWise i n =
      identityCount conf groupWise annotationWise j n := by
  have hiff : ∀ x, SameIdentity groupWise annotationWise i x ↔
      SameIdentity groupWise annotationWise j x := by
    intro x
    obtain ⟨h1, h2, h3⟩ := h
    constructor
    · rintro ⟨g1, g2, g3⟩
      exact ⟨fun hg => (h1 hg).symm.trans (g1 hg), h2.symm.trans g2,
        fun ha => (h3 ha).symm.trans (g3 ha)⟩
    · rintro ⟨g1, g2, g3⟩
      exact ⟨fun hg => (h1 hg).trans (g1 hg), h2.trans g2, fun ha => (h3 ha).trans (g3 ha)⟩
  have hsame : hasIdentity conf groupWise annotationWise i =
      hasIdentity conf groupWise annotationWise j := by
    funext k
    unfold hasIdentity
    cases getLpInfo2 conf (UInt64.ofNat k) with
    | error => rfl
    | ok x => simp only [hiff]
  rw [identityCount, identityCount, hsame]

theorem hasIdentity_iff (h : conf.Positive) (hbound : totalLps conf < 2 ^ 64) (s s' : Slot conf)
    (groupWise annotationWise : Bool) :
    hasIdentity conf groupWise annotationWise ⟨s.grp.name, s.lpt.name, s.lpt.anno, s.rep, s.off⟩
      s'.gid = keeps (scope groupWise s.grp) (testOf s annotationWise) (s'.grp, s'.lpt) := by
  rw [hasIdentity, (getLpInfo_slot h hbound s').1, Bool.eq_iff_iff]
  cases groupWise <;> cases annotationWise <;>
    simp [SameIdentity, keeps, inGroups, scope, testOf, entryMatches, cmpAnno]

theorem identityCount_eq (h : conf.Positive) (hbound : totalLps conf < 2 ^ 64) (s : Slot conf)
    (groupWise annotationWise : Bool) {n : ℕ} (hn : n ≤ totalLps conf) :
    identityCount conf groupWise annotationWise ⟨s.grp.name, s.lpt.name, s.lpt.anno, s.rep, s.off⟩
      n =
      ((lpsOf conf).take n).countP (keeps (scope groupWise s.grp) (testOf s annotationWise)) := by
  induction n with
  | zero => rfl
  | succ n ih =>
    obtain ⟨s', hs'⟩ := exists_slot (show n < totalLps conf from hn)
    obtain ⟨rest, hrest⟩ := s'.lpsOf_eq
    have hlen := s'.length_before
    have hget : (lpsOf conf)[n]? = some (s'.grp, s'.lpt) := by
      rw [hrest, ← hs', ← hlen]
      simp
    have hmatch := hasIdentity_iff h hbound s s' groupWise annotationWise
    rw [hs'] at hmatch
    rw [identityCount, Nat.count_succ, ← identityCount, ih (by omega), List.take_add_one, hget,
      List.countP_append, hmatch, Option.toList_some, List.countP_singleton]

theorem exists_of_lt_count {p : ℕ → Prop} [DecidablePred p] {k n : ℕ} (h : k < Nat.count p n) :
    ∃ m < n, p m ∧ Nat.count p m = k := by
  induction n with
  | zero => simp at h
  | succ n ih =>
    rw [Nat.count_succ] at h
    by_cases hk : k < Nat.count p n
    · obtain ⟨m, hm, hp, he⟩ := ih hk
      exact ⟨m, by omega, hp, he⟩
    · split at h
      · exact ⟨n, by omega, ‹_›, by omega⟩
      · omega

end CodesMapping

end CodesSim
