import CodesSim.Mapping.RoundTrip

/-!
# Mapping contexts

A mapping context tells an interface which LP of the destination type serves a sender: the sender's
group and repetition are kept, and the offset comes from the sender's offset or from the context
(`codes-mapping-context.c`).  A context carries its annotation as an index into the annotations of
the configuration, where the number of annotations stands for no annotation and `-1` for any.

* `Mctx.toLpid` is the lookup; the annotation goes through `getAnnoCidByName` and
  `getAnnoNameByCid`.
* `resolves_iff` says when the LP found has the identity asked for: the index of an annotation that
  occurs nowhere is `-1` too, so that such a request is one for any annotation.
-/

namespace CodesSim.CodesMapping

/-! ### Indices of annotations -/

/-- The annotations of a configuration, each once, in the order of their first occurrence
(`anno_names`). -/
def annoNames (conf : LpConf) : List String :=
  (conf.flatMap fun lpg => lpg.lptypes.filterMap LpType.anno).eraseDups

/-- `get_cid_by_name`. -/
def getCidByName (name : String) (names : List String) : ℤ :=
  match names.findIdx? (· == name) with
  | some i => i
  | none => -1

/-- `get_name_by_cid`. -/
def getNameByCid (cid : ℤ) (names : List String) : Option String :=
  if cid < 0 ∨ cid ≥ names.length then none else names[cid.toNat]?

/-- `codes_mapping_get_anno_cid_by_name`. -/
def getAnnoCidByName (conf : LpConf) : Option String → ℤ
  | none => (annoNames conf).length
  | some anno =>
    if anno = "" then (annoNames conf).length else getCidByName anno (annoNames conf)

/-- `codes_mapping_get_anno_name_by_cid`. -/
def getAnnoNameByCid (conf : LpConf) (cid : ℤ) : Option String := getNameByCid cid (annoNames conf)

/-! ### Counts -/

/-- The loop of `codes_mapping_get_lp_count` over the entries of a group. -/
def countInGroup (ignoreRepetitions : Bool) (lpTypeName : String) (anno : Option String)
    (ignoreAnnos : Bool) (repetitions : ℕ) : ℤ → List LpType → ℤ
  | total, [] => total
  | total, lpt :: ts =>
    if lpTypeName = lpt.name ∧ (ignoreAnnos || cmpAnno anno lpt.anno) = true then
      let total' := wrapInt (total +
        if ignoreRepetitions then (lpt.count : ℤ) else wrapInt (lpt.count * repetitions))
      if ignoreAnnos then total'
      else countInGroup ignoreRepetitions lpTypeName anno ignoreAnnos repetitions total' ts
    else countInGroup ignoreRepetitions lpTypeName anno ignoreAnnos repetitions total ts

/-- The loop of `codes_mapping_get_lp_count` over the groups. -/
def countScan (groupName : Option String) (ignoreRepetitions : Bool) (lpTypeName : String)
    (anno : Option String) (ignoreAnnos : Bool) : ℤ → LpConf → ℤ
  | total, [] => total
  | total, lpg :: gs =>
    if groupName = none ∨ groupName = some lpg.name then
      let total' := countInGroup ignoreRepetitions lpTypeName anno ignoreAnnos
        lpg.repetitions total lpg.lptypes
      -- the loop ends after the one group that was asked for
      if groupName ≠ none then total'
      else countScan groupName ignoreRepetitions lpTypeName anno ignoreAnnos total' gs
    else countScan groupName ignoreRepetitions lpTypeName anno ignoreAnnos total gs

/-- `codes_mapping_get_lp_count` with all its arguments. -/
def getLpCountOf (conf : LpConf) (groupName : Option String) (ignoreRepetitions : Bool)
    (lpTypeName : String) (anno : Option String) (ignoreAnnos : Bool) : ℤ :=
  countScan groupName (groupName.isSome && ignoreRepetitions) lpTypeName anno ignoreAnnos 0
    conf

/-! ### Contexts -/

/-- How a context computes the offset inside the sender's repetition. -/
inductive GroupKind where
  | ratio
  | ratioReverse
  | modulo
  | moduloReverse
  | direct (offset : ℤ)

/-- A mapping context (`codes_mctx`); `cid` is the index of the annotation. -/
inductive Mctx where
  | globalDirect (lpid : Lpid)
  | group (kind : GroupKind) (cid : ℤ)

/-- The index a context is built with. -/
def setAnno (conf : LpConf) (anno : Option String) (ignoreAnnotations : Bool) : ℤ :=
  if ignoreAnnotations then -1 else getAnnoCidByName conf anno

namespace Mctx

/-- `codes_mctx_set_global_direct`. -/
def setGlobalDirect (lpid : Lpid) : Mctx := .globalDirect lpid

/-- `codes_mctx_set_group_modulo`. -/
def setGroupModulo (conf : LpConf) (anno : Option String) (ignoreAnnotations : Bool) :
    Mctx :=
  .group .modulo (setAnno conf anno ignoreAnnotations)

/-- `codes_mctx_set_group_modulo_reverse`. -/
def setGroupModuloReverse (conf : LpConf) (anno : Option String) (ignoreAnnotations : Bool) :
    Mctx :=
  .group .moduloReverse (setAnno conf anno ignoreAnnotations)

/-- `codes_mctx_set_group_ratio`. -/
def setGroupRatio (conf : LpConf) (anno : Option String) (ignoreAnnotations : Bool) : Mctx :=
  .group .ratio (setAnno conf anno ignoreAnnotations)

/-- `codes_mctx_set_group_ratio_reverse`. -/
def setGroupRatioReverse (conf : LpConf) (anno : Option String) (ignoreAnnotations : Bool) :
    Mctx :=
  .group .ratioReverse (setAnno conf anno ignoreAnnotations)

/-- `codes_mctx_set_group_direct`. -/
def setGroupDirect (conf : LpConf) (offset : ℤ) (anno : Option String)
    (ignoreAnnotations : Bool) : Mctx :=
  .group (.direct offset) (setAnno conf anno ignoreAnnotations)

end Mctx

/-- The context of a kind, an annotation and an ignore flag. -/
def GroupKind.set (conf : LpConf) (anno : Option String) (ignoreAnnotations : Bool) :
    GroupKind → Mctx
  | ratio => .setGroupRatio conf anno ignoreAnnotations
  | ratioReverse => .setGroupRatioReverse conf anno ignoreAnnotations
  | modulo => .setGroupModulo conf anno ignoreAnnotations
  | moduloReverse => .setGroupModuloReverse conf anno ignoreAnnotations
  | direct offset => .setGroupDirect conf offset anno ignoreAnnotations

theorem GroupKind.set_eq (conf : LpConf) (anno : Option String) (ignoreAnnotations : Bool)
    (kind : GroupKind) :
    kind.set conf anno ignoreAnnotations =
      .group kind (setAnno conf anno ignoreAnnotations) := by
  cases kind <;> rfl

/-- The offset of a `ratio` context; the product may wrap around. -/
def ratioOffset (numSrcLps numDestLps offset : ℤ) : ℤ :=
  if numSrcLps ≤ numDestLps then offset
  else
    let destOffset := Int.tdiv (wrapInt (offset * numDestLps)) numSrcLps
    if destOffset ≥ numDestLps then numDestLps - 1 else destOffset

/-- The offset among the destinations. -/
def GroupKind.destOffset (numSrcLps numDestLps offset : ℤ) : GroupKind → ℤ
  | ratio => ratioOffset numSrcLps numDestLps offset
  | ratioReverse => wrapInt (numDestLps - 1 - ratioOffset numSrcLps numDestLps offset)
  | modulo => Int.tmod offset numDestLps
  | moduloReverse => wrapInt (numDestLps - 1 - Int.tmod offset numDestLps)
  | direct o => o

/-- The contexts that count the destinations. -/
def GroupKind.counts : GroupKind → Bool
  | direct _ => false
  | _ => true

/-- The text of the failure of a context that finds no destination. -/
def noLpsError (conf : LpConf) (destLpName senderGroup : String) (senderGid : Lpid) (cid : ℤ) :
    String :=
  "ERROR: Found no LPs of type " ++ destLpName ++ " in group " ++ senderGroup ++ " (source lpid " ++
    toString senderGid.toNat ++ ") with annotation: " ++
    (if cid = -1 then "ignored" else (getAnnoNameByCid conf cid).getD "(null)") ++ "\n"

/-- `codes_mctx_to_lpid`. -/
def Mctx.toLpid (conf : LpConf) (ctx : Mctx) (destLpName : String) (senderGid : Lpid) :
    Except String Lpid :=
  match ctx with
  | .globalDirect lpid => .ok lpid
  | .group kind cid =>
    match getLpInfo2 conf senderGid with
    | .error e => .error e
    | .ok sender =>
      let annoStr := if cid < 0 then none else getAnnoNameByCid conf cid
      let ignoreAnnos := cid == -1
      let numDestLps :=
        getLpCountOf conf (some sender.groupName) true destLpName annoStr ignoreAnnos
      let numSrcLps := getLpCountOf conf (some sender.groupName) true sender.lpTypeName none true
      if kind.counts = true ∧ numDestLps = 0 then
        .error (noLpsError conf destLpName sender.groupName senderGid cid)
      else
        getLpId conf (some sender.groupName) (some destLpName) annoStr ignoreAnnos sender.repId
          (kind.destOffset numSrcLps numDestLps sender.offset)

/-! ### Annotations as indices -/

variable {conf : LpConf}

/-- The annotation that a string asks for: the empty string is no annotation. -/
def reqAnno (anno : Option String) : Option String :=
  if anno = some "" then none else anno

/-- The annotation asked for, if any, occurs in the configuration. -/
def AnnoKnown (conf : LpConf) (anno : Option String) : Prop :=
  ∀ a, reqAnno anno = some a → a ∈ annoNames conf

theorem mem_annoNames {a : String} :
    a ∈ annoNames conf ↔ ∃ g ∈ conf, ∃ t ∈ g.lptypes, t.anno = some a := by
  simp [annoNames, List.mem_eraseDups]

variable {name : String}

theorem getNameByCid_getCidByName {names : List String} (h : name ∈ names) :
    0 ≤ getCidByName name names ∧ getNameByCid (getCidByName name names) names = some name := by
  cases hf : names.findIdx? (· == name) with
  | none => simpa using List.findIdx?_eq_none_iff.1 hf name h
  | some i =>
    obtain ⟨hi, heq, -⟩ := List.findIdx?_eq_some_iff_getElem.1 hf
    have hcid : getCidByName name names = i := by rw [getCidByName, hf]
    rw [hcid]
    refine ⟨by omega, ?_⟩
    rw [getNameByCid, if_neg (by omega), Int.toNat_natCast, List.getElem?_eq_getElem hi]
    exact congrArg some (by simpa using heq)

theorem getCidByName_of_notMem {names : List String} (h : name ∉ names) :
    getCidByName name names = -1 := by
  have hf : names.findIdx? (· == name) = none := by
    rw [List.findIdx?_eq_none_iff]
    intro x hx
    simpa using fun he : x = name => h (he ▸ hx)
  rw [getCidByName, hf]

variable {anno : Option String}

theorem getAnnoNameByCid_of_known (h : AnnoKnown conf anno) :
    0 ≤ getAnnoCidByName conf anno ∧
      getAnnoNameByCid conf (getAnnoCidByName conf anno) = reqAnno anno := by
  have hend : getAnnoNameByCid conf (annoNames conf).length = none := by
    rw [getAnnoNameByCid, getNameByCid, if_pos (by omega)]
  cases anno with
  | none => exact ⟨Int.natCast_nonneg _, hend⟩
  | some a =>
    rw [getAnnoCidByName]
    by_cases ha : a = ""
    · rw [if_pos ha, ha]
      exact ⟨Int.natCast_nonneg _, hend⟩
    · have hreq : reqAnno (some a) = some a := by simp [reqAnno, ha]
      rw [if_neg ha, hreq]
      exact getNameByCid_getCidByName (h a hreq)

theorem getAnnoCidByName_of_not_known (h : ¬ AnnoKnown conf anno) :
    getAnnoCidByName conf anno = -1 := by
  rw [AnnoKnown] at h
  push Not at h
  obtain ⟨a, hreq, ha⟩ := h
  obtain ⟨hne, rfl⟩ : anno ≠ some "" ∧ anno = some a := by
    rw [reqAnno] at hreq
    split_ifs at hreq with he
    exact ⟨he, hreq⟩
  rw [getAnnoCidByName, if_neg fun he => hne (congrArg some he), getCidByName_of_notMem ha]

/-! ### Counts -/

theorem countInGroup_of_not_fits {lpTypeName : String}
    {ignoreAnnos : Bool} (repetitions : ℕ) (total : ℤ) {ts : List LpType}
    (h : ∀ t ∈ ts, ¬LpType.Fits lpTypeName anno ignoreAnnos t) :
    countInGroup true lpTypeName anno ignoreAnnos repetitions total ts = total := by
  induction ts with
  | nil => rfl
  | cons t ts ih =>
    have hskip : ¬(lpTypeName = t.name ∧ (ignoreAnnos || cmpAnno anno t.anno) = true) :=
      fun hfits => h t List.mem_cons_self ⟨hfits.1.symm, hfits.2⟩
    rw [countInGroup, if_neg hskip, ih fun u hu => h u (List.mem_cons_of_mem _ hu)]

theorem countInGroup_entry (lpTypeName : String) (anno : Option String) (ignoreAnnos : Bool)
    (repetitions : ℕ) {ts : List LpType} (h : ∀ t ∈ ts, t.count < 2 ^ 31)
    (hdistinct : ignoreAnnos = false → (ts.map fun t => (t.name, t.anno)).Nodup) :
    countInGroup true lpTypeName anno ignoreAnnos repetitions 0 ts =
      ((entryOf lpTypeName anno ignoreAnnos ts).map LpType.count).getD 0 := by
  induction ts with
  | nil => rfl
  | cons t ts ih =>
    rw [countInGroup, entryOf, List.find?_cons]
    by_cases hfits : LpType.Fits lpTypeName anno ignoreAnnos t
    · rw [if_pos ⟨hfits.1.symm, hfits.2⟩, decide_eq_true hfits]
      have hcount : wrapInt (0 + (t.count : ℤ)) = t.count := by
        rw [Int.zero_add]
        exact wrapInt_natCast (h t List.mem_cons_self)
      simp only [↓reduceIte, hcount]
      split_ifs with hign
      · rfl
      · -- the rest has other names or annotations
        have hign : ignoreAnnos = false := Bool.eq_false_iff.2 hign
        refine countInGroup_of_not_fits repetitions _ fun u hu hu' => ?_
        have hne := (List.nodup_cons.1 (hdistinct hign)).1
        rw [hign] at hfits hu'
        have hanno : anno = t.anno := by simpa [cmpAnno] using hfits.2
        have hanno' : anno = u.anno := by simpa [cmpAnno] using hu'.2
        exact hne (List.mem_map.2 ⟨u, hu,
          Prod.ext (hu'.1.trans hfits.1.symm) (hanno'.symm.trans hanno)⟩)
    · have hskip : ¬(lpTypeName = t.name ∧ (ignoreAnnos || cmpAnno anno t.anno) = true) :=
        fun h => hfits ⟨h.1.symm, h.2⟩
      rw [if_neg hskip, decide_eq_false hfits]
      exact ih (fun u hu => h u (List.mem_cons_of_mem _ hu)) fun hign =>
        (List.nodup_cons.1 (hdistinct hign)).2

theorem getLpCountOf_entry (h : conf.Positive) (s : Slot conf) (lpTypeName : String)
    (anno : Option String) (ignoreAnnos : Bool)
    (hdistinct : ignoreAnnos = false → (s.grp.lptypes.map fun t => (t.name, t.anno)).Nodup) :
    getLpCountOf conf (some s.grp.name) true lpTypeName anno ignoreAnnos =
      ((entryOf lpTypeName anno ignoreAnnos s.grp.lptypes).map LpType.count).getD 0 := by
  have hskip : ∀ pre post : LpConf, (∀ g ∈ pre, g.name ≠ s.grp.name) →
      countScan (some s.grp.name) true lpTypeName anno ignoreAnnos 0 (pre ++ s.grp :: post) =
        countInGroup true lpTypeName anno ignoreAnnos s.grp.repetitions 0 s.grp.lptypes := by
    intro pre post hne
    induction pre with
    | nil => simp [countScan]
    | cons g pre ih =>
      have hng : ¬ (some s.grp.name = none ∨ some s.grp.name = some g.name) := by
        simpa using Ne.symm (hne g List.mem_cons_self)
      rw [List.cons_append, countScan, if_neg hng]
      exact ih fun u hu => hne u (List.mem_cons_of_mem _ hu)
  have hcount := hskip s.pre s.post (names_pre h s)
  rw [← s.conf_eq] at hcount
  rw [getLpCountOf]
  exact hcount.trans
    (countInGroup_entry _ _ _ _ (fun t ht => (h.counts _ s.grp_mem t ht).2) hdistinct)

theorem typeCount_eq (name : String) (anno : Option String) (ts : List LpType) :
    typeCount name ts = ((entryOf name anno true ts).map LpType.count).getD 0 := by
  induction ts with
  | nil => rfl
  | cons t ts ih =>
    rw [typeCount, entryOf, List.find?_cons]
    by_cases hn : t.name = name
    · have hfits : LpType.Fits name anno true t := ⟨hn, rfl⟩
      rw [if_pos hn, decide_eq_true hfits]
      rfl
    · have hfits : ¬LpType.Fits name anno true t := fun h => hn h.1
      rw [if_neg hn, decide_eq_false hfits]
      exact ih

theorem getLpCountOf_ignore (h : conf.Positive) (s : Slot conf) (lpTypeName : String)
    (anno : Option String) :
    getLpCountOf conf (some s.grp.name) true lpTypeName anno true =
      typeCount lpTypeName s.grp.lptypes := by
  rw [getLpCountOf_entry h s _ _ _ fun hign => Bool.noConfusion hign,
    typeCount_eq lpTypeName anno]

theorem getLpCountOf_eq (h : conf.Positive) (s : Slot conf) (lpTypeName : String) :
    getLpCountOf conf (some s.grp.name) true lpTypeName none true =
      getLpCount conf s.grp.name lpTypeName := by
  have hfind : conf.find? (fun lpg => lpg.name = s.grp.name) = some s.grp := by
    have hpre : s.pre.find? (fun lpg => lpg.name = s.grp.name) = none := by
      simpa using names_pre h s
    have := congrArg (fun gs : LpConf => gs.find? fun lpg => lpg.name = s.grp.name) s.conf_eq
    refine this.trans ?_
    simp [List.find?_append, hpre]
  rw [getLpCountOf_ignore h, getLpCount, hfind]

/-! ### Offsets -/

/-- The offset that a context computes is not one of the destinations.  A `modulo` context always
stays inside; a `ratio` context takes over the offset when there are fewer senders than
destinations (and the sender may belong to a longer entry than the one that was counted), and its
product may wrap around to a negative number otherwise. -/
def GroupKind.Misses (numSrcLps numDestLps : ℕ) (offset : ℤ) : GroupKind → Prop
  | ratio | ratioReverse =>
    if numSrcLps ≤ numDestLps then numDestLps ≤ offset
    else wrapInt (offset * numDestLps) ≤ -numSrcLps
  | modulo | moduloReverse => False
  | direct o => o < 0 ∨ numDestLps ≤ o

theorem wrapInt_bounds (i : ℤ) : -2 ^ 31 ≤ wrapInt i ∧ wrapInt i < 2 ^ 31 := by
  have hlo := Int.le_bmod (x := i) (m := 2 ^ 32) (by omega)
  have hhi := Int.bmod_lt (x := i) (m := 2 ^ 32) (by omega)
  rw [wrapInt]
  omega

/-- Division rounds towards zero. -/
theorem tdiv_range {p m : ℤ} (hm : 0 < m) :
    (p ≤ -m → Int.tdiv p m < 0 ∧ -Int.tdiv p m * m ≤ -p) ∧ (-m < p → 0 ≤ Int.tdiv p m) := by
  by_cases hp : 0 ≤ p
  · exact ⟨fun h => absurd h (by omega), fun _ => Int.tdiv_nonneg hp (by omega)⟩
  · obtain ⟨q, rfl⟩ : ∃ q, p = -q := ⟨-p, by omega⟩
    rw [Int.neg_tdiv, Int.tdiv_eq_ediv_of_nonneg (by omega)]
    constructor
    · intro h
      have hone : 1 ≤ q / m := (Int.le_ediv_iff_mul_le hm).2 (by omega)
      have hmul := Int.ediv_mul_le q (b := m) (by omega)
      rw [Int.neg_neg, Int.neg_neg]
      exact ⟨by omega, hmul⟩
    · intro h
      rw [Int.ediv_eq_zero_of_lt (by omega) (by omega)]
      omega

theorem ratioOffset_of_lt {numSrcLps numDestLps : ℕ} (hlt : numDestLps < numSrcLps) (offset : ℤ) :
    (wrapInt (offset * numDestLps) ≤ -numSrcLps →
      ratioOffset numSrcLps numDestLps offset < 0 ∧
        -ratioOffset numSrcLps numDestLps offset * numSrcLps ≤ 2 ^ 31) ∧
    (¬ wrapInt (offset * numDestLps) ≤ -numSrcLps → 0 < numDestLps →
      0 ≤ ratioOffset numSrcLps numDestLps offset ∧
        ratioOffset numSrcLps numDestLps offset < numDestLps) := by
  obtain ⟨hlo, -⟩ := wrapInt_bounds (offset * numDestLps)
  rw [ratioOffset, if_neg (by omega)]
  generalize wrapInt (offset * numDestLps) = p at hlo
  obtain ⟨hneg, hnonneg⟩ := tdiv_range (p := p) (m := numSrcLps) (by omega)
  dsimp only
  generalize Int.tdiv p numSrcLps = d at hneg hnonneg
  constructor
  · intro hp
    obtain ⟨hd, hmul⟩ := hneg hp
    rw [if_neg (by omega)]
    exact ⟨hd, by omega⟩
  · intro hp hpos
    have hd := hnonneg (by omega)
    split_ifs <;> omega

/-- **The offset is one of the destinations** unless the context misses. -/
theorem destOffset_in_range {numSrcLps numDestLps off : ℕ} (hpos : 0 < numDestLps)
    (hdest : numDestLps < 2 ^ 31) (hoff : off < 2 ^ 31) (kind : GroupKind) :
    (0 ≤ kind.destOffset numSrcLps numDestLps off ∧
      kind.destOffset numSrcLps numDestLps off < numDestLps) ↔
    ¬ kind.Misses numSrcLps numDestLps off := by
  have hmod : Int.tmod off numDestLps = (off % numDestLps : ℕ) := (Int.ofNat_tmod _ _).symm
  have hmlt : off % numDestLps < numDestLps := Nat.mod_lt _ hpos
  generalize off % numDestLps = r at hmod hmlt
  cases kind with
  | modulo =>
    simp only [GroupKind.destOffset, GroupKind.Misses, hmod, not_false_eq_true, iff_true]
    omega
  | moduloReverse =>
    simp only [GroupKind.destOffset, GroupKind.Misses, hmod, not_false_eq_true, iff_true]
    rw [wrapInt_of_range (by omega) (by omega)]
    omega
  | direct o =>
    simp only [GroupKind.destOffset, GroupKind.Misses]
    omega
  | ratio =>
    simp only [GroupKind.destOffset, GroupKind.Misses]
    by_cases hle : numSrcLps ≤ numDestLps
    · rw [if_pos hle, ratioOffset, if_pos (by omega)]
      omega
    · obtain ⟨hmiss, hhit⟩ := ratioOffset_of_lt (by omega : numDestLps < numSrcLps) off
      rw [if_neg hle]
      constructor
      · intro h hp
        have := (hmiss hp).1
        omega
      · exact fun h => hhit h hpos
  | ratioReverse =>
    simp only [GroupKind.destOffset, GroupKind.Misses]
    by_cases hle : numSrcLps ≤ numDestLps
    · rw [if_pos hle, ratioOffset, if_pos (by omega), wrapInt_of_range (by omega) (by omega)]
      omega
    · obtain ⟨hmiss, hhit⟩ := ratioOffset_of_lt (by omega : numDestLps < numSrcLps) off
      rw [if_neg hle]
      constructor
      · intro h hp
        obtain ⟨hneg, hmul⟩ := hmiss hp
        generalize ratioOffset numSrcLps numDestLps off = d at h hneg hmul
        -- a negative offset is turned into one behind the destinations, without a wrap
        have hbig : -d + numDestLps ≤ -d * numSrcLps := by
          have h1 : -d * (numDestLps + 1) ≤ -d * numSrcLps :=
            Int.mul_le_mul_of_nonneg_left (by omega) (by omega)
          have h2 : 1 * (numDestLps : ℤ) ≤ -d * numDestLps :=
            Int.mul_le_mul_of_nonneg_right (by omega) (by omega)
          rw [Int.mul_add, Int.mul_one] at h1
          omega
        rw [wrapInt_of_range (by omega) (by omega)] at h
        omega
      · intro h
        obtain ⟨h0, h1⟩ := hhit h hpos
        rw [wrapInt_of_range (by omega) (by omega)]
        omega

/-! ### The lookup without annotations -/

theorem getLpId_ignore (h : conf.Positive) (s : Slot conf) (name : String) (anno : Option String)
    (off : ℤ) (hname : ∃ t ∈ s.grp.lptypes, t.name = name) :
    (∃ gid, getLpId conf (some s.grp.name) (some name) anno true s.rep off = .ok gid) ↔
      0 ≤ off ∧ off < typeCount name s.grp.lptypes := by
  obtain ⟨u, hu, hn⟩ := hname
  have hsome : (entryOf name anno true s.grp.lptypes).isSome := by
    rw [entryOf, List.find?_isSome]
    exact ⟨u, hu, decide_eq_true ⟨hn, rfl⟩⟩
  obtain ⟨t, ht⟩ := Option.isSome_iff_exists.1 hsome
  rw [getLpId_entry h s ht, typeCount_eq name anno, ht]
  rfl

/-! ### The LP found -/

theorem typeCount_pos (h : conf.Positive) {g : LpGroup} (hg : g ∈ conf)
    (hname : ∃ t ∈ g.lptypes, t.name = name) :
    0 < typeCount name g.lptypes ∧ typeCount name g.lptypes < 2 ^ 31 := by
  have hcounts := h.counts g hg
  generalize g.lptypes = ts at hname hcounts
  induction ts with
  | nil => simp at hname
  | cons t ts ih =>
    rw [typeCount]
    split_ifs with hn
    · exact hcounts t List.mem_cons_self
    · obtain ⟨u, hu, hun⟩ := hname
      have hmem : u ∈ ts := (List.mem_cons.1 hu).resolve_left fun he => hn (he ▸ hun)
      exact ih ⟨u, hmem, hun⟩ fun v hv => hcounts v (List.mem_cons_of_mem _ hv)

theorem slot_of_toLpid {kind : GroupKind} {cid : ℤ} {dest : String} {gid lpid : Lpid}
    {sender : LpInfo2} (hs : getLpInfo2 conf gid = .ok sender)
    (hok : Mctx.toLpid conf (.group kind cid) dest gid = .ok lpid) :
    ∃ s : Slot conf, s.grp.name = sender.groupName ∧ (s.rep : ℤ) = sender.repId ∧
      s.lpt.name = dest ∧
      (cid ≠ -1 → s.lpt.anno = if cid < 0 then none else getAnnoNameByCid conf cid) ∧
      lpid = UInt64.ofNat s.gid := by
  simp only [Mctx.toLpid, hs] at hok
  generalize (if cid < 0 then none else getAnnoNameByCid conf cid) = annoStr at hok ⊢
  split_ifs at hok
  obtain ⟨s, hg, ht, hanno, hrep, -, hlpid⟩ := slot_of_getLpId hok
  refine ⟨s, (Option.some.inj hg).symm, hrep.symm, (Option.some.inj ht).symm, fun hc => ?_, hlpid⟩
  exact hanno (by simpa using hc)

theorem toLpid_ignored (h : conf.Positive) (hbound : totalLps conf < 2 ^ 64) (s : Slot conf)
    (kind : GroupKind) {dest : String} (hdest : ∃ t ∈ s.grp.lptypes, t.name = dest) :
    (∃ lpid, Mctx.toLpid conf (.group kind (-1)) dest (UInt64.ofNat s.gid) = .ok lpid) ↔
      ¬ kind.Misses (getLpCount conf s.grp.name s.lpt.name) (getLpCount conf s.grp.name dest)
        s.off := by
  have hcount : ∀ name, (typeCount name s.grp.lptypes : ℤ) = getLpCount conf s.grp.name name :=
    fun name => (getLpCountOf_ignore h s name none).symm.trans (getLpCountOf_eq h s name)
  obtain ⟨hpos, hlt⟩ := typeCount_pos h s.grp_mem hdest
  have hoff := s.off_lt
  have hcnt := (h.counts _ s.grp_mem _ s.lpt_mem).2
  have hmisses := @destOffset_in_range (typeCount s.lpt.name s.grp.lptypes) _ s.off hpos hlt
    (by omega) kind
  have hne : ¬ (kind.counts = true ∧ (typeCount dest s.grp.lptypes : ℤ) = 0) := by omega
  simp only [Mctx.toLpid, (getLpInfo_slot h hbound s).1, BEq.rfl, getLpCountOf_ignore h s,
    if_neg hne]
  rw [getLpId_ignore h s _ _ _ hdest, hmisses]
  rw [Int.ofNat_inj.1 (hcount dest), Int.ofNat_inj.1 (hcount s.lpt.name)]

/-- The context built from an annotation leads to an LP of the requested identity: in the sender's
group and repetition, of the requested type and, unless annotations are ignored, with the
annotation; a request for an annotation that no such LP has fails. -/
structure Resolves (conf : LpConf) (kind : GroupKind) (anno : Option String)
    (ignoreAnnotations : Bool) (dest : String) (gid : Lpid) (sender : LpInfo2) : Prop where
  identity : ∀ lpid,
    (kind.set conf anno ignoreAnnotations).toLpid conf dest gid = .ok lpid →
    ∃ j, getLpInfo2 conf lpid = .ok j ∧ j.groupName = sender.groupName ∧ j.repId = sender.repId ∧
      j.lpTypeName = dest ∧ (ignoreAnnotations = false → j.anno = reqAnno anno)
  rejected : ignoreAnnotations = false →
    (∀ g ∈ conf, g.name = sender.groupName → ∀ t ∈ g.lptypes, t.name = dest →
      t.anno ≠ reqAnno anno) →
    ∃ e, (kind.set conf anno ignoreAnnotations).toLpid conf dest gid = .error e

/-- **A mapping context leads to an LP of the requested identity** if and only if annotations are
ignored, or the annotation asked for, if any, occurs somewhere in the configuration, or the context
misses the destinations anyway. -/
theorem resolves_iff (conf : LpConf) (h : conf.Positive) (hbound : totalLps conf < 2 ^ 64)
    (kind : GroupKind) (anno : Option String) (ignoreAnnotations : Bool) (dest : String)
    (gid : Lpid) (sender : LpInfo2) (hs : getLpInfo2 conf gid = .ok sender)
    (hdest : ∃ g ∈ conf, g.name = sender.groupName ∧ ∃ t ∈ g.lptypes, t.name = dest) :
    Resolves conf kind anno ignoreAnnotations dest gid sender ↔
      ignoreAnnotations = true ∨ AnnoKnown conf anno ∨
        kind.Misses (getLpCount conf sender.groupName sender.lpTypeName)
          (getLpCount conf sender.groupName dest) sender.offset := by
  obtain ⟨s, rfl, rfl⟩ := exists_slot_of_getLpInfo2 h hbound hs
  obtain ⟨g, hg, hname, hdest⟩ := hdest
  obtain rfl : g = s.grp := List.inj_on_of_nodup_map h.names hg s.grp_mem hname
  have hanys := toLpid_ignored h hbound s kind hdest
  constructor
  · intro hres
    by_contra hcon
    push Not at hcon
    obtain ⟨hign, hknown, hmisses⟩ := hcon
    have hign : ignoreAnnotations = false := by simpa using hign
    subst hign
    obtain ⟨lpid, hok⟩ := hanys.2 hmisses
    have hcid : setAnno conf anno false = -1 := getAnnoCidByName_of_not_known hknown
    obtain ⟨j, hj, -, -, -, hanno⟩ := hres.identity lpid (by rw [GroupKind.set_eq, hcid]; exact hok)
    obtain ⟨s', -, -, -, -, rfl⟩ := slot_of_toLpid hs hok
    rw [(getLpInfo_slot h hbound s').1] at hj
    obtain rfl := Except.ok.inj hj
    -- the LP found carries an annotation of the configuration
    refine hknown fun a ha => mem_annoNames.2 ⟨s'.grp, s'.grp_mem, s'.lpt, s'.lpt_mem, ?_⟩
    exact (hanno rfl).trans ha
  · intro hcond
    have hidentity : ∀ lpid,
        (kind.set conf anno ignoreAnnotations).toLpid conf dest (UInt64.ofNat s.gid) =
          .ok lpid →
        ∃ s' : Slot conf, s'.grp.name = s.grp.name ∧ (s'.rep : ℤ) = s.rep ∧ s'.lpt.name = dest ∧
          (ignoreAnnotations = false → s'.lpt.anno = reqAnno anno) ∧
          lpid = UInt64.ofNat s'.gid := by
      intro lpid hok
      rw [GroupKind.set_eq] at hok
      obtain ⟨s', hgrp, hrep, htype, hanno, hlpid⟩ := slot_of_toLpid hs hok
      refine ⟨s', hgrp, hrep, htype, fun hign => ?_, hlpid⟩
      subst hign
      by_cases hknown : AnnoKnown conf anno
      · obtain ⟨hcid, hback⟩ := getAnnoNameByCid_of_known hknown
        have hset : setAnno conf anno false = getAnnoCidByName conf anno := rfl
        rw [hset] at hanno
        rw [hanno (by omega), if_neg (by omega), hback]
      · have hmisses := (hcond.resolve_left (by simp)).resolve_left hknown
        have hcid : setAnno conf anno false = -1 := getAnnoCidByName_of_not_known hknown
        rw [hcid] at hok
        exact absurd hmisses (hanys.1 ⟨lpid, hok⟩)
    refine ⟨fun lpid hok => ?_, fun hign hnone => ?_⟩
    · obtain ⟨s', hgrp, hrep, htype, hanno, rfl⟩ := hidentity lpid hok
      exact ⟨_, (getLpInfo_slot h hbound s').1, hgrp, hrep, htype, hanno⟩
    · cases hres : (kind.set conf anno ignoreAnnotations).toLpid conf dest
        (UInt64.ofNat s.gid) with
      | error e => exact ⟨e, rfl⟩
      | ok lpid =>
        obtain ⟨s', hgrp, -, htype, hanno, -⟩ := hidentity lpid hres
        exact absurd (hanno hign) (hnone s'.grp s'.grp_mem hgrp s'.lpt s'.lpt_mem htype)

/-- A known annotation in a group with two entries of one type name. -/
theorem resolves_iff_annotated :
    Resolves [⟨"G", 2, [⟨"nic", some "x", 2⟩, ⟨"nic", some "y", 3⟩, ⟨"svr", none, 4⟩]⟩] .modulo
      (some "y") false "nic" 8 ⟨"G", "svr", none, 0, 3⟩ :=
  (resolves_iff [⟨"G", 2, [⟨"nic", some "x", 2⟩, ⟨"nic", some "y", 3⟩, ⟨"svr", none, 4⟩]⟩]
    (by decide) (by decide) .modulo (some "y") false "nic" 8 ⟨"G", "svr", none, 0, 3⟩ (by decide)
    (by decide)).2 (.inr (.inl fun a ha => by
      obtain rfl : "y" = a := Option.some.inj ha
      decide +kernel))

/-- **An annotation that occurs nowhere is ignored.**  The request for `nic@z` in a group that has
only an unannotated `nic` is answered with that LP. -/
theorem context_ignores_unknown :
    (Mctx.setGroupModulo [⟨"G", 1, [⟨"nic", none, 1⟩, ⟨"svr", none, 1⟩]⟩] (some "z") false).toLpid
        [⟨"G", 1, [⟨"nic", none, 1⟩, ⟨"svr", none, 1⟩]⟩] "nic" 1 = .ok 0 ∧
      getLpInfo2 [⟨"G", 1, [⟨"nic", none, 1⟩, ⟨"svr", none, 1⟩]⟩] 0 =
        .ok ⟨"G", "nic", none, 0, 0⟩ ∧
      ¬ Resolves [⟨"G", 1, [⟨"nic", none, 1⟩, ⟨"svr", none, 1⟩]⟩] .modulo (some "z") false "nic" 1
        ⟨"G", "svr", none, 0, 0⟩ := by
  have hok : (Mctx.setGroupModulo [⟨"G", 1, [⟨"nic", none, 1⟩, ⟨"svr", none, 1⟩]⟩] (some "z")
      false).toLpid [⟨"G", 1, [⟨"nic", none, 1⟩, ⟨"svr", none, 1⟩]⟩] "nic" 1 = .ok 0 := by
    decide +kernel
  have hinfo : getLpInfo2 [⟨"G", 1, [⟨"nic", none, 1⟩, ⟨"svr", none, 1⟩]⟩] 0 =
      .ok ⟨"G", "nic", none, 0, 0⟩ := by decide
  refine ⟨hok, hinfo, fun hres => ?_⟩
  obtain ⟨j, hj, -, -, -, hanno⟩ := hres.identity 0 hok
  rw [hinfo] at hj
  obtain rfl := Except.ok.inj hj
  exact absurd (hanno rfl) (by decide)

end CodesSim.CodesMapping
