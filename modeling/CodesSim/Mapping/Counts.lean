import CodesSim.Lib.Outcome
import CodesSim.Mapping.Context
import CodesSim.Mapping.Placement
import CodesSim.Mapping.Relative

/-!
# Counts of LPs

The LPs of a type are counted in two ways: `codes_mapping_count_lps_of_type` looks up the type of
each LP of a PE, and `codes_mapping_get_lp_count` adds up the counts in the configuration.

* `totalOfPes` adds the first count up over the PEs.
* `countsAgree_iff` : the two agree only if half of all LPs have the type: the first count is the
  one of the LPs of other types.  The second one stops at the first entry of a type in each group.

The names in the configuration fit into the buffers they are copied to, where the first count
compares them.
-/

namespace CodesSim

open Outcome

namespace CodesMapping

/-! ### The functions of the source -/

/-- The number of LPs, as `codes_mapping_setup_with_seed_offset` adds it up. -/
def setupLps (conf : LpConf) : Lpid :=
  conf.foldl (fun nlps lpg => lpg.lptypes.foldl
    (fun nlps lpt => nlps + ofInt (wrapInt (lpt.count * lpg.repetitions))) nlps) 0

/-- The LPs that `codes_mapping_init` sets up on rank `mynode`. -/
def PeSplit.hosted (s : PeSplit) (mynode : Peid) : List Lpid :=
  (List.range (s.lpEnd mynode - s.lpStart mynode).toNat).map fun lid =>
    s.lpStart mynode + UInt64.ofNat lid

/-- `codes_mapping_count_lps_of_type` for the LPs of a PE.  (`strncmp` is zero for names that are
equal.) -/
def countLpsOfType (conf : LpConf) (lpTypeName : String) (lps : List Lpid) : Except String Lpid :=
  lps.foldlM (fun count gid => do
    let i ← getLpInfo conf gid
    return if lpTypeName ≠ i.lpTypeName then count + 1 else count) 0

/-- The counts of all PEs together. -/
def totalOfPes (conf : LpConf) (pes : ℕ) (lpTypeName : String) : Except String ℕ := do
  let counts ← (List.range pes).mapM fun p : ℕ =>
    countLpsOfType conf lpTypeName ((PeSplit.setup (setupLps conf) pes).hosted p)
  return (counts.map UInt64.toNat).sum

/-- The number of LPs of a type. -/
def lpsOfType (conf : LpConf) (lpTypeName : String) : ℕ :=
  (lpsOf conf).countP fun x => x.2.name == lpTypeName

/-- The counts of the PEs add up to the count of the configuration, the number of LPs of the
type. -/
def CountsAgree (conf : LpConf) (pes : ℕ) (lpTypeName : String) : Prop :=
  ∃ total, totalOfPes conf pes lpTypeName = .ok total ∧
    (total : ℤ) = getLpCountOf conf none false lpTypeName none true ∧
    getLpCountOf conf none false lpTypeName none true = lpsOfType conf lpTypeName

/-! ### The LPs of the PEs -/

/-- The LPs of an entry are counted by an `int`. -/
def EntriesFit (conf : LpConf) : Prop :=
  ∀ g ∈ conf, ∀ t ∈ g.lptypes, t.count * g.repetitions < 2 ^ 31

instance (conf : LpConf) : Decidable (EntriesFit conf) :=
  inferInstanceAs (Decidable (∀ g ∈ conf, ∀ t ∈ g.lptypes, t.count * g.repetitions < 2 ^ 31))

theorem foldl_entries {reps : ℕ} {ts : List LpType}
    (h : ∀ t ∈ ts, t.count * reps < 2 ^ 31) (n : ℕ) :
    ts.foldl (fun nlps lpt => nlps + ofInt (wrapInt (lpt.count * reps))) (UInt64.ofNat n) =
      UInt64.ofNat (n + reps * lpCount ts) := by
  induction ts generalizing n with
  | nil => simp [lpCount]
  | cons t ts ih =>
    obtain ⟨ht, hts⟩ := List.forall_mem_cons.1 h
    have hwrap : wrapInt ((t.count : ℤ) * reps) = ((t.count * reps : ℕ) : ℤ) := by
      rw [← wrapInt_natCast ht]
      push_cast
      rfl
    rw [List.foldl_cons, hwrap, ofInt_natCast, ← UInt64.ofNat_add, ih hts, lpCount_cons]
    ring_nf

theorem setupLps_eq {conf : LpConf} (h : EntriesFit conf) :
    setupLps conf = UInt64.ofNat (totalLps conf) := by
  have hgroups (gs : LpConf) (hgs : EntriesFit gs) (n : ℕ) :
      gs.foldl (fun nlps lpg => lpg.lptypes.foldl
        (fun nlps lpt => nlps + ofInt (wrapInt (lpt.count * lpg.repetitions))) nlps)
          (UInt64.ofNat n) = UInt64.ofNat (n + totalLps gs) := by
    induction gs generalizing n with
    | nil => simp
    | cons g gs ih =>
      obtain ⟨hg, hrest⟩ := List.forall_mem_cons.1 hgs
      rw [List.foldl_cons, foldl_entries hg, ih hrest, totalLps_cons, LpGroup.size, LpGroup.perRep,
        Nat.add_assoc]
  have := hgroups conf h 0
  rwa [Nat.zero_add] at this

section

variable {n pes : ℕ} (hn : n < 2 ^ 64) (hpos : 0 < pes) (hpes : pes < 2 ^ 31)

include hn hpos hpes

theorem hosted_eq {p : ℕ} (hp : p < pes) : (PeSplit.setup (UInt64.ofNat n) pes).hosted p =
    (List.range' (blockStart n pes p) (blockStart n pes (p + 1) - blockStart n pes p)).map
      UInt64.ofNat := by
  have hle : blockStart n pes p ≤ blockStart n pes (p + 1) := blockStart_mono (Nat.le_succ p)
  have hend : blockStart n pes (p + 1) ≤ n :=
    (blockStart_mono (show p + 1 ≤ pes from hp)).trans (blockStart_last hpos).le
  have hsub : UInt64.ofNat (blockStart n pes (p + 1)) - UInt64.ofNat (blockStart n pes p) =
      UInt64.ofNat (blockStart n pes (p + 1) - blockStart n pes p) := by
    rw [← UInt64.toNat_inj, UInt64.toNat_sub_of_le _ _ (by
      rw [UInt64.le_iff_toNat_le, toNat_word (by omega), toNat_word (by omega)]
      exact hle), toNat_word (by omega), toNat_word (by omega), toNat_word (by omega)]
  rw [PeSplit.hosted, lpStart_eq hn hpos hpes (by omega), lpEnd_eq hn hpos hpes hp, hsub,
    toNat_word (by omega), List.range'_eq_map_range, List.map_map]
  exact List.map_congr_left fun k _ => (UInt64.ofNat_add _ _).symm

end

theorem flatMap_blocks (n pes q : ℕ) : (List.range q).flatMap (fun p =>
    List.range' (blockStart n pes p) (blockStart n pes (p + 1) - blockStart n pes p)) =
      List.range (blockStart n pes q) := by
  induction q with
  | zero => simp [blockStart_zero]
  | succ q ih =>
    have hle : blockStart n pes q ≤ blockStart n pes (q + 1) := blockStart_mono (Nat.le_succ q)
    have happend := List.range'_append_1 (s := 0) (m := blockStart n pes q)
      (n := blockStart n pes (q + 1) - blockStart n pes q)
    rw [Nat.zero_add, Nat.add_sub_of_le hle] at happend
    rw [List.range_succ, List.flatMap_append, ih, List.flatMap_singleton, List.range_eq_range',
      List.range_eq_range', happend]

/-! ### The first count -/

section

variable {conf : LpConf} (h : conf.Positive) (hbound : totalLps conf < 2 ^ 64)

/-- The LP with an id is of another type. -/
def otherType (conf : LpConf) (lpTypeName : String) (k : ℕ) : Bool :=
  (lpsOf conf)[k]?.any fun x => x.2.name != lpTypeName

include h hbound in
/-- What the lookup of an id says about the type. -/
theorem getLpInfo_type (lpTypeName : String) {k : ℕ} (hk : k < totalLps conf) :
    ∃ i, getLpInfo conf (UInt64.ofNat k) = .ok i ∧
      (lpTypeName ≠ i.lpTypeName ↔ otherType conf lpTypeName k = true) := by
  obtain ⟨s, rfl⟩ := exists_slot hk
  refine ⟨_, (getLpInfo_slot h hbound s).2, ?_⟩
  obtain ⟨rest, hrest⟩ := s.lpsOf_eq
  have hget : (lpsOf conf)[s.gid]? = some (s.grp, s.lpt) := by
    rw [hrest, ← s.length_before]
    simp
  rw [otherType, hget, Option.any_some, bne_iff_ne]
  exact ne_comm

include h hbound in
/-- **The first count** is the one of the LPs of other types. -/
theorem countLpsOfType_eq (lpTypeName : String) {ks : List ℕ} (hks : ∀ k ∈ ks, k < totalLps conf) :
    countLpsOfType conf lpTypeName (ks.map UInt64.ofNat) =
      .ok (UInt64.ofNat (ks.countP (otherType conf lpTypeName))) := by
  have hfold (n : ℕ) : (ks.map UInt64.ofNat).foldlM (fun count gid => do
        let i ← getLpInfo conf gid
        return if lpTypeName ≠ i.lpTypeName then count + 1 else count) (UInt64.ofNat n) =
      Except.ok (UInt64.ofNat (n + ks.countP (otherType conf lpTypeName))) := by
    induction ks generalizing n with
    | nil => rfl
    | cons k ks ih =>
      obtain ⟨hk, hrest⟩ := List.forall_mem_cons.1 hks
      obtain ⟨i, hi, htype⟩ := getLpInfo_type h hbound lpTypeName hk
      have hstep : (if lpTypeName ≠ i.lpTypeName then UInt64.ofNat n + 1 else UInt64.ofNat n) =
          UInt64.ofNat (n + if otherType conf lpTypeName k then 1 else 0) := by
        by_cases hother : otherType conf lpTypeName k = true
        · rw [if_pos (htype.2 hother), if_pos hother, word_succ]
        · rw [if_neg (mt htype.1 hother), if_neg hother]
          rfl
      rw [List.map_cons, List.foldlM_cons, hi]
      change (ks.map UInt64.ofNat).foldlM _ (if lpTypeName ≠ i.lpTypeName then _ else _) = _
      rw [hstep, ih hrest, List.countP_cons]
      congr 2
      omega
  have := hfold 0
  rwa [Nat.zero_add] at this

theorem countP_range_getElem {α : Type*} (test : α → Bool) (l : List α) :
    (List.range l.length).countP (fun k => l[k]?.any test) = l.countP test := by
  induction l with
  | nil => rfl
  | cons a l ih =>
    rw [List.length_cons, List.range_succ_eq_map, List.countP_cons, List.countP_cons,
      List.countP_map, ← ih]
    rfl

/-- The ids of a rank. -/
def block (conf : LpConf) (pes p : ℕ) : List ℕ :=
  List.range' (blockStart (totalLps conf) pes p)
    (blockStart (totalLps conf) pes (p + 1) - blockStart (totalLps conf) pes p)

theorem mem_block {pes p k : ℕ} (hpos : 0 < pes) (hp : p < pes) (hk : k ∈ block conf pes p) :
    k < totalLps conf := by
  have hend : blockStart (totalLps conf) pes (p + 1) ≤ blockStart (totalLps conf) pes pes :=
    blockStart_mono hp
  rw [blockStart_last hpos] at hend
  obtain ⟨hfirst, hlast⟩ := List.mem_range'_1.1 hk
  omega

include h hbound in
/-- **The first counts of all PEs.** -/
theorem totalOfPes_eq (hfit : EntriesFit conf) {pes : ℕ} (hpos : 0 < pes)
    (hpes : pes < 2 ^ 31) (lpTypeName : String) :
    totalOfPes conf pes lpTypeName =
      .ok ((lpsOf conf).countP fun x => x.2.name != lpTypeName) := by
  have hcount (p : ℕ) (hp : p ∈ List.range pes) :
      countLpsOfType conf lpTypeName ((PeSplit.setup (setupLps conf) pes).hosted p) =
        .ok (UInt64.ofNat ((block conf pes p).countP (otherType conf lpTypeName))) := by
    rw [setupLps_eq hfit, hosted_eq hbound hpos hpes (List.mem_range.1 hp)]
    exact countLpsOfType_eq h hbound lpTypeName fun k hk => mem_block hpos (List.mem_range.1 hp) hk
  have hsmall (p : ℕ) (hp : p ∈ List.range pes) :
      (block conf pes p).countP (otherType conf lpTypeName) < 2 ^ 64 := by
    refine (List.countP_le_length.trans ?_).trans_lt hbound
    have hend : blockStart (totalLps conf) pes (p + 1) ≤ blockStart (totalLps conf) pes pes :=
      blockStart_mono (List.mem_range.1 hp)
    rw [blockStart_last hpos] at hend
    rw [block, List.length_range']
    omega
  have hsum : (((List.range pes).map fun p =>
      UInt64.ofNat ((block conf pes p).countP (otherType conf lpTypeName))).map UInt64.toNat).sum =
        (lpsOf conf).countP fun x => x.2.name != lpTypeName := by
    have hwords : ((List.range pes).map fun p =>
        UInt64.ofNat ((block conf pes p).countP (otherType conf lpTypeName))).map UInt64.toNat =
          (List.range pes).map fun p => (block conf pes p).countP (otherType conf lpTypeName) := by
      rw [List.map_map]
      exact List.map_congr_left fun p hp => toNat_word (hsmall p hp)
    rw [hwords]
    have hall := countP_range_getElem (fun x : LpGroup × LpType => x.2.name != lpTypeName)
      (lpsOf conf)
    rw [length_lpsOf, ← blockStart_last (n := totalLps conf) hpos, ← flatMap_blocks,
      List.countP_flatMap] at hall
    exact hall
  rw [totalOfPes, mapM_eq_map hcount]
  exact congrArg Except.ok hsum

end

/-! ### The second count -/

/-- The LPs of the entries that the second count looks at. -/
def firstCount (conf : LpConf) (lpTypeName : String) : ℕ :=
  (conf.map fun g => g.repetitions * typeCount lpTypeName g.lptypes).sum

theorem countInGroup_first (lpTypeName : String) (repetitions : ℕ) (total : ℤ) (ts : List LpType) :
    countInGroup false lpTypeName none true repetitions (wrapInt total) ts =
      wrapInt (total + repetitions * typeCount lpTypeName ts) := by
  induction ts with
  | nil => simp [countInGroup, typeCount]
  | cons t ts ih =>
    rw [countInGroup, typeCount]
    by_cases hname : lpTypeName = t.name
    · rw [if_pos ⟨hname, by simp⟩, if_pos hname.symm]
      simp only [if_true, Bool.false_eq_true, if_false]
      rw [wrapInt_add_wrapInt, wrapInt_wrapInt_add, Int.mul_comm (t.count : ℤ)]
    · rw [if_neg (fun h => hname h.1), if_neg (Ne.symm hname), ih]

/-- **The second count** is the one of the first entries. -/
theorem getLpCountOf_first (conf : LpConf) (lpTypeName : String) :
    getLpCountOf conf none false lpTypeName none true = wrapInt (firstCount conf lpTypeName) := by
  have hscan (gs : LpConf) (total : ℤ) :
      countScan none false lpTypeName none true (wrapInt total) gs =
        wrapInt (total + firstCount gs lpTypeName) := by
    induction gs generalizing total with
    | nil => simp [countScan, firstCount]
    | cons g gs ih =>
      rw [countScan, if_pos (Or.inl rfl)]
      simp only [ne_eq, not_true_eq_false, if_false]
      rw [countInGroup_first, ih]
      simp only [firstCount, List.map_cons, List.sum_cons]
      push_cast
      rw [Int.add_assoc]
  have := hscan conf 0
  rwa [Int.zero_add] at this

/-- The test for a type. -/
def ofType (lpTypeName : String) (t : LpType) : Bool := t.name == lpTypeName

theorem lpsOfType_eq (conf : LpConf) (lpTypeName : String) :
    lpsOfType conf lpTypeName = groupsCount (ofType lpTypeName) conf :=
  countP_lpsOf (ofType lpTypeName) conf

/-- An entry is missed exactly if another one of its type comes before it. -/
theorem typeCount_le (lpTypeName : String) {ts : List LpType} (hpos : ∀ t ∈ ts, 0 < t.count) :
    typeCount lpTypeName ts ≤ matchCount (ofType lpTypeName) ts ∧
      (typeCount lpTypeName ts = matchCount (ofType lpTypeName) ts ↔
        ts.countP (ofType lpTypeName) ≤ 1) := by
  induction ts with
  | nil => simp [typeCount]
  | cons t ts ih =>
    obtain ⟨ht, hts⟩ := List.forall_mem_cons.1 hpos
    rw [typeCount, matchCount_cons, List.countP_cons]
    by_cases hname : t.name = lpTypeName
    · have htest : ofType lpTypeName t = true := beq_iff_eq.2 hname
      have hzero : matchCount (ofType lpTypeName) ts = 0 ↔ ts.countP (ofType lpTypeName) = 0 := by
        rw [List.countP_eq_zero, matchCount, List.sum_eq_zero_iff_forall_eq_nat]
        constructor
        · intro hall u hu hmatch
          have := hall _ (List.mem_map_of_mem hu)
          rw [if_pos hmatch] at this
          exact (hts u hu).ne' this
        · intro hall n hn
          obtain ⟨u, hu, rfl⟩ := List.mem_map.1 hn
          exact if_neg (hall u hu)
      rw [if_pos hname, if_pos htest, if_pos htest]
      omega
    · have htest : ¬ofType lpTypeName t = true := mt beq_iff_eq.1 hname
      rw [if_neg hname, if_neg htest, if_neg htest, Nat.zero_add, Nat.add_zero]
      exact ih hts

/-- **The second count is complete** if no group has two entries of the type. -/
theorem firstCount_le {conf : LpConf} (h : conf.Positive) (lpTypeName : String) :
    firstCount conf lpTypeName ≤ lpsOfType conf lpTypeName ∧
      (firstCount conf lpTypeName = lpsOfType conf lpTypeName ↔
        ∀ g ∈ conf, g.lptypes.countP (ofType lpTypeName) ≤ 1) := by
  rw [lpsOfType_eq]
  obtain ⟨-, hreps, hcounts⟩ := h
  induction conf with
  | nil => simp [firstCount, groupsCount]
  | cons g gs ih =>
    obtain ⟨hg, hgs⟩ := List.forall_mem_cons.1 hreps
    obtain ⟨hts, hrest⟩ := List.forall_mem_cons.1 hcounts
    obtain ⟨hle, heq⟩ := typeCount_le lpTypeName fun t ht => (hts t ht).1
    obtain ⟨hgroups, hall⟩ := ih hgs hrest
    have hmul : g.repetitions * typeCount lpTypeName g.lptypes ≤
        g.repetitions * matchCount (ofType lpTypeName) g.lptypes := Nat.mul_le_mul_left _ hle
    have hmuleq : g.repetitions * typeCount lpTypeName g.lptypes =
        g.repetitions * matchCount (ofType lpTypeName) g.lptypes ↔
          typeCount lpTypeName g.lptypes = matchCount (ofType lpTypeName) g.lptypes :=
      Nat.mul_right_inj hg.1.ne'
    rw [List.forall_mem_cons, ← hall, ← heq, ← hmuleq, groupsCount_cons]
    simp only [firstCount, List.map_cons, List.sum_cons] at hgroups ⊢
    omega

/-! ### The counts together -/

/-- **The counts agree only by accident**: if exactly half of all LPs are of the type, there are not
too many of them for an `int`, and no group has two entries of the type. -/
theorem countsAgree_iff {conf : LpConf} (h : conf.Positive) (hfit : EntriesFit conf)
    (hbound : totalLps conf < 2 ^ 64) {pes : ℕ} (hpos : 0 < pes) (hpes : pes < 2 ^ 31)
    (lpTypeName : String) :
    CountsAgree conf pes lpTypeName ↔ 2 * lpsOfType conf lpTypeName = totalLps conf ∧
      lpsOfType conf lpTypeName < 2 ^ 31 ∧
        ∀ g ∈ conf, g.lptypes.countP (fun t => t.name == lpTypeName) ≤ 1 := by
  have hsplit : totalLps conf = lpsOfType conf lpTypeName +
      (lpsOf conf).countP fun x => x.2.name != lpTypeName := by
    rw [← length_lpsOf, lpsOfType]
    refine (List.length_eq_countP_add_countP fun x => x.2.name == lpTypeName).trans ?_
    exact congrArg _ (List.countP_congr fun x _ => by simp)
  obtain ⟨hle, hfirst⟩ := firstCount_le h lpTypeName
  change _ ↔ _ ∧ _ ∧ ∀ g ∈ conf, g.lptypes.countP (ofType lpTypeName) ≤ 1
  rw [CountsAgree, totalOfPes_eq h hbound hfit hpos hpes, getLpCountOf_first, ← hfirst]
  have hwrap : wrapInt (firstCount conf lpTypeName) < 2 ^ 31 ∧
      (firstCount conf lpTypeName < 2 ^ 31 →
        wrapInt (firstCount conf lpTypeName) = firstCount conf lpTypeName) :=
    ⟨Int.bmod_lt (by decide), wrapInt_natCast⟩
  constructor
  · rintro ⟨total, htotal, hcount, hall⟩
    cases htotal
    omega
  · rintro ⟨hhalf, hlt, hall⟩
    have := hwrap.2 (by omega)
    exact ⟨_, rfl, by omega, by omega⟩

/-- One terminal and one router. -/
theorem countsAgree_pair :
    CountsAgree [⟨"G", 1, [⟨"nic", none, 1⟩, ⟨"router", none, 1⟩]⟩] 2 "nic" :=
  (countsAgree_iff (by decide) (by decide) (by decide) (by decide) (by decide) "nic").2
    (by decide +kernel)

/-- The counts of two terminals of one router. -/
theorem counts_disagree : ¬ ∀ conf : LpConf, conf.Wf → EntriesFit conf →
    totalLps conf < 2 ^ 64 → ∀ pes, 0 < pes → pes < 2 ^ 31 →
      ∀ lpTypeName, CountsAgree conf pes lpTypeName := by
  intro h
  obtain ⟨total, htotal, hcount, -⟩ := h [⟨"G", 1, [⟨"nic", none, 2⟩, ⟨"router", none, 1⟩]⟩]
    (by decide) (by decide) (by decide) 1 (by decide) (by decide) "nic"
  have hsum : totalOfPes [⟨"G", 1, [⟨"nic", none, 2⟩, ⟨"router", none, 1⟩]⟩] 1 "nic" = .ok 1 := by
    decide +kernel
  have hconf : getLpCountOf [⟨"G", 1, [⟨"nic", none, 2⟩, ⟨"router", none, 1⟩]⟩] none false "nic"
      none true = 2 := by decide +kernel
  rw [hsum] at htotal
  cases htotal
  omega

end CodesMapping

end CodesSim
