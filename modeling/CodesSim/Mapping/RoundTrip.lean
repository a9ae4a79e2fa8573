import CodesSim.Mapping.Basic

/-!
# The LP id mapping is a round trip

A `Slot` of a configuration is one LP: a group, one of its types, a repetition and an offset.
`Slot.gid` is its position in the numbering.  Slots are the common meaning of the three lookups:

* every number below the total is the position of a slot (`exists_slot`);
* the lookups by id return the slot at a position (`groupScan_slot`);
* the lookup by name returns the position of a slot (`lpIdScan_slot`) and only of a slot
  (`slot_of_getLpId`).
-/

namespace CodesSim
variable {n : ℕ}


namespace CodesMapping

/-! ### Words -/

theorem toNat_word (h : n < 2 ^ 64) : (UInt64.ofNat n).toNat = n := by
  rw [UInt64.toNat_ofNat', Nat.mod_eq_of_lt h]

theorem word_lt {m : ℕ} (hm : m < 2 ^ 64) (hn : n < 2 ^ 64) :
    UInt64.ofNat m < UInt64.ofNat n ↔ m < n := by
  rw [UInt64.lt_iff_toNat_lt, toNat_word hm, toNat_word hn]

theorem toInt_word (h : n < 2 ^ 31) : toInt (UInt64.ofNat n) = n := by
  have hw : (UInt64.ofNat n).toNat = n := toNat_word (by omega)
  have hb : (n : ℤ).bmod (2 ^ 32) = n := by apply Int.bmod_eq_of_le_mul_two <;> omega
  unfold toInt
  rw [hw, hb]

theorem wrapInt_of_range {i : ℤ} (h : -2 ^ 31 ≤ i) (h' : i < 2 ^ 31) : wrapInt i = i := by
  rw [wrapInt]
  apply Int.bmod_eq_of_le_mul_two <;> omega

theorem wrapInt_natCast {m : ℕ} (h : m < 2 ^ 31) : wrapInt m = m :=
  wrapInt_of_range (by omega) (by omega)

theorem ofInt_natCast (n : ℕ) : ofInt (n : ℤ) = UInt64.ofNat n := by
  have h : ((n : ℤ) % 2 ^ 64).toNat = n % 2 ^ 64 := by omega
  rw [ofInt, UInt64.ofInt, h, ← UInt64.toNat_inj]
  simp [UInt64.toNat_ofNat']

theorem foldl_count (ts : List LpType) (w : Lpid) :
    ts.foldl (fun n lpt => n + UInt64.ofNat lpt.count) w = w + UInt64.ofNat (lpCount ts) := by
  induction ts generalizing w with
  | nil => simp [lpCount]
  | cons t ts ih =>
    rw [List.foldl_cons, ih]
    simp [lpCount, UInt64.ofNat_add, UInt64.add_assoc]

theorem repCount_eq (g : LpGroup) : repCount g = UInt64.ofNat g.perRep := by
  rw [repCount, foldl_count, UInt64.zero_add, LpGroup.perRep]

end CodesMapping

/-! ### Sizes -/

@[simp] theorem lpCount_nil : lpCount [] = 0 := rfl

@[simp] theorem lpCount_cons (t : LpType) (ts : List LpType) :
    lpCount (t :: ts) = t.count + lpCount ts := by simp [lpCount]

@[simp] theorem lpCount_append (ts us : List LpType) :
    lpCount (ts ++ us) = lpCount ts + lpCount us := by simp [lpCount]

@[simp] theorem totalLps_nil : totalLps [] = 0 := rfl

@[simp] theorem totalLps_cons (g : LpGroup) (gs : LpConf) :
    totalLps (g :: gs) = g.size + totalLps gs := by simp [totalLps]

@[simp] theorem totalLps_append (gs hs : LpConf) :
    totalLps (gs ++ hs) = totalLps gs + totalLps hs := by simp [totalLps]

/-- One LP of a configuration: the group and the type it belongs to, with what precedes and
follows them in the configuration, and its repetition and offset. -/
structure Slot (conf : LpConf) where
  pre : LpConf
  grp : LpGroup
  post : LpConf
  tpre : List LpType
  lpt : LpType
  tpost : List LpType
  rep : ℕ
  off : ℕ
  conf_eq : conf = pre ++ grp :: post
  types_eq : grp.lptypes = tpre ++ lpt :: tpost
  rep_lt : rep < grp.repetitions
  off_lt : off < lpt.count

namespace Slot

variable {conf : LpConf}

/-- Position of the LP inside its repetition. -/
def inRep (s : Slot conf) : ℕ := lpCount s.tpre + s.off

/-- Position of the LP in the numbering of all LPs. -/
def gid (s : Slot conf) : ℕ := totalLps s.pre + s.grp.perRep * s.rep + s.inRep

theorem grp_mem (s : Slot conf) : s.grp ∈ conf := by
  have h : s.grp ∈ s.pre ++ s.grp :: s.post := by simp
  rwa [← s.conf_eq] at h

theorem lpt_mem (s : Slot conf) : s.lpt ∈ s.grp.lptypes := by rw [s.types_eq]; simp

theorem perRep_eq (s : Slot conf) :
    s.grp.perRep = lpCount s.tpre + s.lpt.count + lpCount s.tpost := by
  simp [LpGroup.perRep, s.types_eq, Nat.add_assoc]

theorem inRep_lt (s : Slot conf) : s.inRep < s.grp.perRep := by
  have := s.off_lt
  rw [perRep_eq, inRep]; omega

theorem inGroup_lt (s : Slot conf) : s.grp.perRep * s.rep + s.inRep < s.grp.size := by
  have h : s.grp.perRep * (s.rep + 1) ≤ s.grp.perRep * s.grp.repetitions :=
    Nat.mul_le_mul_left _ s.rep_lt
  have := s.inRep_lt
  rw [LpGroup.size, Nat.mul_comm s.grp.repetitions]
  rw [Nat.mul_succ] at h
  omega

theorem total_eq (s : Slot conf) :
    totalLps conf = totalLps s.pre + s.grp.size + totalLps s.post := by
  have h : totalLps (s.pre ++ s.grp :: s.post) = _ := totalLps_append _ _
  rw [← s.conf_eq, totalLps_cons] at h
  omega

theorem gid_lt (s : Slot conf) : s.gid < totalLps conf := by
  have := s.inGroup_lt
  rw [s.total_eq, gid]; omega

end Slot

variable {ts : List LpType}

theorem exists_type {q : ℕ} (h : q < lpCount ts) :
    ∃ tpre lpt tpost off, ts = tpre ++ lpt :: tpost ∧ off < lpt.count ∧
      q = lpCount tpre + off := by
  induction ts generalizing q with
  | nil => simp at h
  | cons t ts ih =>
    by_cases hq : q < t.count
    · exact ⟨[], t, ts, q, rfl, hq, by simp⟩
    · rw [lpCount_cons] at h
      obtain ⟨tpre, lpt, tpost, off, rfl, hoff, he⟩ := ih (q := q - t.count) (by omega)
      exact ⟨t :: tpre, lpt, tpost, off, rfl, hoff, by simp; omega⟩

theorem exists_group {conf : LpConf} (h : n < totalLps conf) :
    ∃ pre grp post r, conf = pre ++ grp :: post ∧ r < grp.size ∧ n = totalLps pre + r := by
  induction conf generalizing n with
  | nil => simp at h
  | cons g gs ih =>
    by_cases hn : n < g.size
    · exact ⟨[], g, gs, n, rfl, hn, by simp⟩
    · rw [totalLps_cons] at h
      obtain ⟨pre, grp, post, r, rfl, hr, he⟩ := ih (n := n - g.size) (by omega)
      exact ⟨g :: pre, grp, post, r, rfl, hr, by simp; omega⟩

/-- **Every number below the total is the position of an LP.** -/
theorem exists_slot {conf : LpConf} (h : n < totalLps conf) : ∃ s : Slot conf, s.gid = n := by
  obtain ⟨pre, grp, post, r, hc, hr, hn⟩ := exists_group h
  have hpos : 0 < grp.perRep := by
    rcases Nat.eq_zero_or_pos grp.perRep with h0 | h0
    · simp [LpGroup.size, h0] at hr
    · exact h0
  obtain ⟨tpre, lpt, tpost, off, ht, hoff, hq⟩ :=
    exists_type (q := r % grp.perRep) (show _ < lpCount grp.lptypes from Nat.mod_lt _ hpos)
  refine ⟨⟨pre, grp, post, tpre, lpt, tpost, r / grp.perRep, off, hc, ht, ?_, hoff⟩, ?_⟩
  · exact Nat.div_lt_of_lt_mul (by rwa [LpGroup.size, Nat.mul_comm] at hr)
  · have := Nat.div_add_mod r grp.perRep
    simp only [Slot.gid, Slot.inRep]
    omega

namespace CodesMapping

variable {conf : LpConf}

/-! ### The lookups by id -/

theorem typeScan_append (tpre : List LpType) (lpt : LpType) (tpost : List LpType) (a off l : ℕ)
    (hoff : off < lpt.count) (hint : off < 2 ^ 31)
    (hbound : a + lpCount tpre + lpt.count < 2 ^ 64) :
    typeScan (UInt64.ofNat (a + lpCount tpre + off)) (UInt64.ofNat a) l
      (tpre ++ lpt :: tpost) = some (lpt, l + tpre.length, (off : ℤ)) := by
  induction tpre generalizing a l with
  | nil =>
    simp only [lpCount_nil, Nat.add_zero] at hbound ⊢
    have hlt : UInt64.ofNat (a + off) < UInt64.ofNat a + UInt64.ofNat lpt.count := by
      rw [← UInt64.ofNat_add, word_lt (by omega) (by omega)]
      omega
    have hsub : UInt64.ofNat (a + off) - UInt64.ofNat a = UInt64.ofNat off := by
      rw [Nat.add_comm, UInt64.ofNat_add, UInt64.add_sub_cancel]
    rw [List.nil_append, typeScan, if_pos hlt, hsub, toInt_word hint]
    simp
  | cons t tpre ih =>
    simp only [lpCount_cons] at hbound ⊢
    have hge : ¬ UInt64.ofNat (a + (t.count + lpCount tpre) + off) <
        UInt64.ofNat a + UInt64.ofNat t.count := by
      rw [← UInt64.ofNat_add, word_lt (by omega) (by omega)]
      omega
    have he : a + (t.count + lpCount tpre) + off = a + t.count + lpCount tpre + off := by omega
    rw [List.cons_append, typeScan, if_neg hge, ← UInt64.ofNat_add, he, ih _ _ (by omega)]
    simp; omega

theorem groupScan_skip (pre rest : LpConf) (n a i : ℕ) (hn : a + totalLps pre ≤ n)
    (hbound : n < 2 ^ 64) :
    groupScan (UInt64.ofNat n) (UInt64.ofNat a) i (pre ++ rest) =
      groupScan (UInt64.ofNat n) (UInt64.ofNat (a + totalLps pre)) (i + pre.length) rest := by
  induction pre generalizing a i with
  | nil => simp
  | cons g pre ih =>
    simp only [totalLps_cons] at hn ⊢
    have hsize : repCount g * UInt64.ofNat g.repetitions = UInt64.ofNat g.size := by
      rw [repCount_eq, ← UInt64.ofNat_mul, LpGroup.size, Nat.mul_comm]
    have hle : ¬ UInt64.ofNat g.size + UInt64.ofNat a > UInt64.ofNat n := by
      rw [← UInt64.ofNat_add, gt_iff_lt, word_lt (by omega) (by omega)]
      omega
    rw [List.cons_append, groupScan]
    simp only [hsize, if_neg hle]
    rw [← UInt64.ofNat_add, ih _ _ (by omega)]
    simp only [List.length_cons]
    congr 1
    · rw [Nat.add_assoc]
    · omega

/-- **The scan by id returns the LP at that position.** -/
theorem groupScan_slot (hwf : conf.Positive) (hbound : totalLps conf < 2 ^ 64) (s : Slot conf) :
    groupScan (UInt64.ofNat s.gid) 0 0 conf =
      some (s.grp, s.pre.length, s.lpt, s.tpre.length, (s.rep : ℤ), (s.off : ℤ)) := by
  have hgid := s.gid_lt
  have hin := s.inGroup_lt
  have htot := s.total_eq
  have hrep := hwf.reps _ s.grp_mem
  have hcnt := hwf.counts _ s.grp_mem _ s.lpt_mem
  have hrl := s.rep_lt
  have hol := s.off_lt
  have hir := s.inRep_lt
  have hp := s.perRep_eq
  have hpos : 0 < s.grp.perRep := Nat.zero_lt_of_lt hir
  have hsz : s.grp.perRep ≤ s.grp.size := Nat.le_mul_of_pos_left _ hrep.1
  have hskip := groupScan_skip s.pre (s.grp :: s.post) s.gid 0 0
    (by rw [Slot.gid]; omega) (by omega)
  rw [← s.conf_eq] at hskip
  simp only [Nat.zero_add] at hskip
  rw [show (0 : Lpid) = UInt64.ofNat 0 from rfl, hskip, groupScan]
  have hsize : repCount s.grp * UInt64.ofNat s.grp.repetitions = UInt64.ofNat s.grp.size := by
    rw [repCount_eq, ← UInt64.ofNat_mul, LpGroup.size, Nat.mul_comm]
  have hgt : UInt64.ofNat s.grp.size + UInt64.ofNat (totalLps s.pre) > UInt64.ofNat s.gid := by
    rw [← UInt64.ofNat_add, gt_iff_lt, word_lt (by omega) (by omega), Slot.gid]
    omega
  have hrem : UInt64.ofNat s.gid - UInt64.ofNat (totalLps s.pre) =
      UInt64.ofNat (s.grp.perRep * s.rep + s.inRep) := by
    rw [Slot.gid, Nat.add_assoc, Nat.add_comm (totalLps s.pre), UInt64.ofNat_add,
      UInt64.add_sub_cancel]
  have hdiv : UInt64.ofNat (s.grp.perRep * s.rep + s.inRep) / repCount s.grp =
      UInt64.ofNat s.rep := by
    rw [← UInt64.toNat_inj, repCount_eq, UInt64.toNat_div, toNat_word (by omega),
      toNat_word (by omega), toNat_word (by omega), Nat.mul_add_div hpos, Nat.div_eq_of_lt hir,
      Nat.add_zero]
  have hrepInt : toInt (UInt64.ofNat s.rep) = s.rep := toInt_word (by omega)
  have hrem' : UInt64.ofNat (s.grp.perRep * s.rep + s.inRep) -
      repCount s.grp * UInt64.ofNat s.rep = UInt64.ofNat s.inRep := by
    rw [repCount_eq, ← UInt64.ofNat_mul, Nat.add_comm, UInt64.ofNat_add, UInt64.add_sub_cancel]
  have htype := typeScan_append s.tpre s.lpt s.tpost 0 s.off 0 hol (by omega) (by omega)
  simp only [Nat.zero_add, ← s.types_eq] at htype
  simp only [hsize, hgt, ↓reduceIte, hrem, hdiv, hrepInt, ofInt_natCast, hrem']
  rw [show (0 : Lpid) = UInt64.ofNat 0 from rfl, Slot.inRep, htype]

theorem groupScan_of_ge (conf : LpConf) (n a i : ℕ) (hn : a + totalLps conf ≤ n)
    (hbound : n < 2 ^ 64) :
    groupScan (UInt64.ofNat n) (UInt64.ofNat a) i conf = none := by
  have := groupScan_skip conf [] n a i hn hbound
  rwa [List.append_nil] at this

/-! ### The lookup by name -/

/-- A type that a lookup by name stops at. -/
def LpType.Fits (name : String) (anno : Option String) (ignoreAnno : Bool) (t : LpType) : Prop :=
  t.name = name ∧ (ignoreAnno || cmpAnno anno t.anno) = true

instance (name : String) (anno : Option String) (ignoreAnno : Bool) :
    DecidablePred (LpType.Fits name anno ignoreAnno) :=
  fun t => inferInstanceAs (Decidable (t.name = name ∧ (ignoreAnno || cmpAnno anno t.anno) = true))

/-- The type that a lookup by name stops at. -/
def entryOf (name : String) (anno : Option String) (ignoreAnno : Bool) (ts : List LpType) :
    Option LpType :=
  ts.find? fun t => LpType.Fits name anno ignoreAnno t

variable {ignoreAnno : Bool} {anno : Option String}

variable {name : String}

theorem entryOf_eq_some {lpt : LpType} :
    entryOf name anno ignoreAnno ts = some lpt ↔ LpType.Fits name anno ignoreAnno lpt ∧
      ∃ tpre tpost, ts = tpre ++ lpt :: tpost ∧ ∀ t ∈ tpre,
      ¬LpType.Fits name anno ignoreAnno t := by
  simp [entryOf, List.find?_eq_some_iff_append]

theorem lpIdInGroup_append (tpre : List LpType) (lpt : LpType) (tpost : List LpType)
    (rep off rc gid : ℕ) (a : ℕ) (hfits : LpType.Fits name anno ignoreAnno lpt)
    (hne : ∀ t ∈ tpre, ¬LpType.Fits name anno ignoreAnno t) :
    lpIdInGroup name anno ignoreAnno rep off (UInt64.ofNat rc) (UInt64.ofNat gid)
      (UInt64.ofNat a) (tpre ++ lpt :: tpost) =
        if off < lpt.count then some (UInt64.ofNat (gid + (rc * rep + (a + lpCount tpre) + off)))
        else none := by
  induction tpre generalizing a with
  | nil =>
    rw [List.nil_append, lpIdInGroup, if_pos (by exact hfits)]
    by_cases hoff : off < lpt.count
    · rw [if_neg (by omega), if_pos hoff]
      simp [ofInt_natCast, UInt64.ofNat_add, UInt64.ofNat_mul]
    · rw [if_pos (by omega), if_neg hoff]
  | cons t tpre ih =>
    rw [List.cons_append, lpIdInGroup, if_neg (by exact hne t List.mem_cons_self),
      ← UInt64.ofNat_add, ih _ fun u hu => hne u (List.mem_cons_of_mem _ hu)]
    simp only [lpCount_cons]
    congr 3; omega

theorem lpIdInGroup_some {rep off : ℤ} {rc gid w : Lpid} {a : ℕ}
    (h : lpIdInGroup name anno ignoreAnno rep off rc gid (UInt64.ofNat a) ts = some w) :
    ∃ tpre lpt tpost, ts = tpre ++ lpt :: tpost ∧ lpt.name = name ∧
      (ignoreAnno = false → lpt.anno = anno) ∧ off < lpt.count ∧
      w = gid + (rc * ofInt rep + UInt64.ofNat (a + lpCount tpre) + ofInt off) := by
  induction ts generalizing a with
  | nil => simp [lpIdInGroup] at h
  | cons t ts ih =>
    rw [lpIdInGroup] at h
    split_ifs at h with hm ho
    · refine ⟨[], t, ts, rfl, hm.1, fun hi => ?_, by omega, (Option.some.inj h).symm⟩
      have hanno := hm.2
      rw [hi, Bool.false_or, cmpAnno, beq_iff_eq] at hanno
      exact hanno.symm
    · rw [← UInt64.ofNat_add] at h
      obtain ⟨tpre, lpt, tpost, rfl, h1, h2, h3, h4⟩ := ih h
      exact ⟨t :: tpre, lpt, tpost, rfl, h1, h2, h3, by rw [h4, lpCount_cons, Nat.add_assoc a]⟩

theorem lpIdScan_append (pre : LpConf) (grp : LpGroup) (post : LpConf) (name : String)
    (anno : Option String) (ignoreAnno : Bool) (rep off : ℤ) (a : ℕ)
    (hne : ∀ g ∈ pre, g.name ≠ grp.name) (hrep : rep < grp.repetitions) :
    lpIdScan grp.name name anno ignoreAnno rep off (UInt64.ofNat a) (pre ++ grp :: post) =
      lpIdInGroup name anno ignoreAnno rep off (repCount grp) (UInt64.ofNat (a + totalLps pre)) 0
        grp.lptypes := by
  induction pre generalizing a with
  | nil =>
    rw [List.nil_append, lpIdScan, if_pos rfl, if_neg (by omega)]
    simp
  | cons g pre ih =>
    have hsize : UInt64.ofNat g.repetitions * repCount g = UInt64.ofNat g.size := by
      rw [repCount_eq, ← UInt64.ofNat_mul, LpGroup.size]
    rw [List.cons_append, lpIdScan, if_neg (hne g List.mem_cons_self), hsize, ← UInt64.ofNat_add,
      ih _ fun u hu => hne u (List.mem_cons_of_mem _ hu)]
    simp only [totalLps_cons, Nat.add_assoc]

theorem lpIdScan_some {gname : String} {rep off : ℤ} {a : ℕ} {w : Lpid}
    (h : lpIdScan gname name anno ignoreAnno rep off (UInt64.ofNat a) conf = some w) :
    ∃ pre grp post, conf = pre ++ grp :: post ∧ grp.name = gname ∧ rep < grp.repetitions ∧
      ∃ tpre lpt tpost, grp.lptypes = tpre ++ lpt :: tpost ∧ lpt.name = name ∧
        (ignoreAnno = false → lpt.anno = anno) ∧ off < lpt.count ∧
        w = UInt64.ofNat (a + totalLps pre) +
          (repCount grp * ofInt rep + UInt64.ofNat (lpCount tpre) + ofInt off) := by
  induction conf generalizing a with
  | nil => simp [lpIdScan] at h
  | cons g gs ih =>
    rw [lpIdScan] at h
    split_ifs at h with hn hr
    · obtain ⟨tpre, lpt, tpost, h1, h2, h3, h4, h5⟩ := lpIdInGroup_some (a := 0) h
      refine ⟨[], g, gs, rfl, hn, by omega, tpre, lpt, tpost, h1, h2, h3, h4, ?_⟩
      rw [h5, Nat.zero_add]
      rfl
    · have hsize : UInt64.ofNat g.repetitions * repCount g = UInt64.ofNat g.size := by
        rw [repCount_eq, ← UInt64.ofNat_mul, LpGroup.size]
      rw [hsize, ← UInt64.ofNat_add] at h
      obtain ⟨pre, grp, post, rfl, h1, h2, tpre, lpt, tpost, h3, h4, h5, h6, h7⟩ := ih h
      refine ⟨g :: pre, grp, post, rfl, h1, h2, tpre, lpt, tpost, h3, h4, h5, h6, ?_⟩
      rw [h7, totalLps_cons, Nat.add_assoc a]

theorem ne_of_nodup_map_append {α β : Type*} {f : α → β} {xs ys : List α} {y : α}
    (h : ((xs ++ y :: ys).map f).Nodup) : ∀ x ∈ xs, f x ≠ f y := by
  intro x hx he
  rw [List.map_append, List.nodup_append] at h
  exact h.2.2 (f x) (List.mem_map_of_mem hx) (f y) (by simp) he

theorem names_pre (h : conf.Positive) (s : Slot conf) : ∀ g ∈ s.pre, g.name ≠ s.grp.name := by
  have := h.names
  rw [s.conf_eq] at this
  exact ne_of_nodup_map_append this

theorem getLpId_inGroup (h : conf.Positive) (s : Slot conf) (name : String) (anno : Option String)
    (ignoreAnno : Bool) (off : ℕ) :
    getLpId conf (some s.grp.name) (some name) anno ignoreAnno s.rep off =
      match lpIdInGroup name anno ignoreAnno s.rep off (UInt64.ofNat s.grp.perRep)
          (UInt64.ofNat (totalLps s.pre)) (UInt64.ofNat 0) s.grp.lptypes with
      | some gid => .ok gid
      | none => .error (lpIdError (some s.grp.name) (some name) anno s.rep off) := by
  have hscan := lpIdScan_append s.pre s.grp s.post name anno ignoreAnno s.rep off 0
    (names_pre h s) (by exact_mod_cast s.rep_lt)
  rw [← s.conf_eq, repCount_eq, Nat.zero_add] at hscan
  have hpos : ¬((s.rep : ℤ) < 0 ∨ (off : ℤ) < 0) := by omega
  rw [getLpId, if_neg hpos, Option.bind_some, Option.bind_some]
  rw [show (0 : Lpid) = UInt64.ofNat 0 from rfl, hscan]
  rfl

theorem getLpId_first (h : conf.Positive) (s : Slot conf)
    (hfits : LpType.Fits name anno ignoreAnno s.lpt)
    (hne : ∀ t ∈ s.tpre, ¬LpType.Fits name anno ignoreAnno t) :
    getLpId conf (some s.grp.name) (some name) anno ignoreAnno s.rep s.off =
      .ok (UInt64.ofNat s.gid) := by
  rw [getLpId_inGroup h, s.types_eq, lpIdInGroup_append _ _ _ _ _ _ _ _ hfits hne, if_pos s.off_lt]
  simp only [Slot.gid, Slot.inRep]
  congr 2; omega

theorem getLpId_entry (h : conf.Positive) (s : Slot conf)
    {t : LpType} (ht : entryOf name anno ignoreAnno s.grp.lptypes = some t)
    (off : ℤ) :
    (∃ gid, getLpId conf (some s.grp.name) (some name) anno ignoreAnno s.rep off = .ok gid) ↔
      0 ≤ off ∧ off < t.count := by
  by_cases hneg : off < 0
  · rw [getLpId, if_pos (.inr hneg)]
    refine iff_of_false ?_ (by omega)
    rintro ⟨gid, hgid⟩
    cases hgid
  · obtain ⟨off, rfl⟩ := Int.eq_ofNat_of_zero_le (by omega : 0 ≤ off)
    obtain ⟨hfits, tpre, tpost, hts, hne⟩ := entryOf_eq_some.1 ht
    rw [getLpId_inGroup h, hts, lpIdInGroup_append _ _ _ _ _ _ _ _ hfits hne]
    split_ifs with hoff
    · exact iff_of_true ⟨_, rfl⟩ (by omega)
    · refine iff_of_false ?_ (by omega)
      rintro ⟨gid, hgid⟩
      cases hgid

/-- **The lookup by name returns the position of the LP.** -/
theorem getLpId_slot (hwf : conf.Wf) (s : Slot conf) :
    getLpId conf (some s.grp.name) (some s.lpt.name) s.lpt.anno false s.rep s.off =
      .ok (UInt64.ofNat s.gid) := by
  refine getLpId_first hwf.positive s ⟨rfl, by simp [cmpAnno]⟩ ?_
  have hdistinct := hwf.types _ s.grp_mem
  rw [s.types_eq] at hdistinct
  rintro t ht ⟨hname, hanno⟩
  have hanno : s.lpt.anno = t.anno := by simpa [cmpAnno] using hanno
  exact ne_of_nodup_map_append (f := fun t : LpType => (t.name, t.anno)) hdistinct t ht
    (by rw [hname, hanno])

/-- **Whatever the lookup by name finds is an LP** of the requested group, type, repetition, offset
and, unless annotations are ignored, annotation. -/
theorem slot_of_getLpId {g t a : Option String} {rep off : ℤ} {gid : Lpid}
    (h : getLpId conf g t a ignoreAnno rep off = .ok gid) :
    ∃ s : Slot conf, g = some s.grp.name ∧ t = some s.lpt.name ∧
      (ignoreAnno = false → s.lpt.anno = a) ∧ rep = s.rep ∧ off = s.off ∧
      gid = UInt64.ofNat s.gid := by
  rw [getLpId] at h
  split at h <;> rename_i w hw
  · obtain rfl := Except.ok.inj h
    split_ifs at hw with hneg
    obtain ⟨gname, rfl, hw'⟩ := Option.bind_eq_some_iff.1 hw
    obtain ⟨tname, rfl, hscan⟩ := Option.bind_eq_some_iff.1 hw'
    obtain ⟨pre, grp, post, hc, rfl, hrep, tpre, lpt, tpost, hts, rfl, hanno, hoff, rfl⟩ :=
      lpIdScan_some (a := 0) hscan
    obtain ⟨n, rfl⟩ := Int.eq_ofNat_of_zero_le (by omega : 0 ≤ rep)
    obtain ⟨k, rfl⟩ := Int.eq_ofNat_of_zero_le (by omega : 0 ≤ off)
    refine ⟨⟨pre, grp, post, tpre, lpt, tpost, n, k, hc, hts, by omega, by omega⟩,
      rfl, rfl, hanno, rfl, rfl, ?_⟩
    simp only [Slot.gid, Slot.inRep, ofInt_natCast, repCount_eq, Nat.zero_add, ← UInt64.ofNat_mul,
      ← UInt64.ofNat_add, Nat.add_assoc]
  · cases h

/-! ### The round trip -/

/-- The annotation buffer `getLpInfo` fills: the empty string stands for no annotation. -/
def annoBuf (anno : Option String) : String := anno.getD ""

theorem getLpInfo_slot (hwf : conf.Positive) (hbound : totalLps conf < 2 ^ 64) (s : Slot conf) :
    getLpInfo2 conf (UInt64.ofNat s.gid) =
        .ok ⟨s.grp.name, s.lpt.name, s.lpt.anno, s.rep, s.off⟩ ∧
      getLpInfo conf (UInt64.ofNat s.gid) =
        .ok ⟨s.grp.name, s.pre.length, s.lpt.name, s.tpre.length, annoBuf s.lpt.anno, s.rep,
          s.off⟩ := by
  rw [getLpInfo2, getLpInfo, groupScan_slot hwf hbound s]
  refine ⟨rfl, ?_⟩
  cases h : s.lpt.anno <;> simp [annoBuf, h]

theorem exists_slot_of_getLpInfo2 (h : conf.Positive) (hbound : totalLps conf < 2 ^ 64) {gid : Lpid}
    {i : LpInfo2} (hi : getLpInfo2 conf gid = .ok i) : ∃ s : Slot conf, gid = UInt64.ofNat s.gid ∧
      i = ⟨s.grp.name, s.lpt.name, s.lpt.anno, s.rep, s.off⟩ := by
  have he : gid = UInt64.ofNat gid.toNat := by simp
  have hlt : gid.toNat < totalLps conf := by
    by_contra hge
    have hnone := groupScan_of_ge conf gid.toNat 0 0 (by omega) gid.toNat_lt
    rw [← he, show UInt64.ofNat 0 = (0 : Lpid) from rfl] at hnone
    rw [getLpInfo2, hnone] at hi
    cases hi
  obtain ⟨s, hs⟩ := exists_slot hlt
  rw [← hs] at he
  refine ⟨s, he, ?_⟩
  rw [he, (getLpInfo_slot h hbound s).1] at hi
  exact (Except.ok.inj hi).symm

/-- `getLpInfo` and `getLpInfo2` agree on every output they share; a missing annotation is the
empty string in one and `NULL` in the other. -/
def InfoAgree (i : LpInfo) (j : LpInfo2) : Prop :=
  i.groupName = j.groupName ∧ i.lpTypeName = j.lpTypeName ∧ i.anno = annoBuf j.anno ∧
    i.repId = j.repId ∧ i.offset = j.offset

/-- The name `j` denotes an LP of the configuration: its group and type exist and its repetition
and offset are in range. -/
def InRange (conf : LpConf) (j : LpInfo2) : Prop :=
  ∃ g ∈ conf, g.name = j.groupName ∧ 0 ≤ j.repId ∧ j.repId < g.repetitions ∧
    ∃ t ∈ g.lptypes, t.name = j.lpTypeName ∧ t.anno = j.anno ∧ 0 ≤ j.offset ∧
      j.offset < t.count

/-- **The LP id mapping is a round trip.**  Every id below the total is found by both lookups by
id, at a name in range from which the lookup by name returns the id; conversely the lookups by id
return the name the lookup by name was given; ids from the total on are rejected. -/
theorem lpid_round_trip (conf : LpConf) (hwf : conf.Wf) (hbound : totalLps conf < 2 ^ 64) :
    (∀ gid : Lpid, gid.toNat < totalLps conf →
      ∃ i j, getLpInfo conf gid = .ok i ∧ getLpInfo2 conf gid = .ok j ∧ InfoAgree i j ∧
        InRange conf j ∧
        getLpId conf (some j.groupName) (some j.lpTypeName) j.anno false j.repId j.offset =
          .ok gid) ∧
    (∀ g t a rep off gid, getLpId conf g t a false rep off = .ok gid →
      ∃ i j, getLpInfo conf gid = .ok i ∧ getLpInfo2 conf gid = .ok j ∧ InfoAgree i j ∧
        g = some j.groupName ∧ t = some j.lpTypeName ∧ a = j.anno ∧ rep = j.repId ∧
        off = j.offset) ∧
    (∀ gid : Lpid, totalLps conf ≤ gid.toNat →
      getLpInfo conf gid = .error (lpInfoError gid) ∧
        getLpInfo2 conf gid = .error (lpInfoError gid)) := by
  refine ⟨fun gid hgid => ?_, fun g t a rep off gid h => ?_, fun gid hgid => ?_⟩
  · obtain ⟨s, hs⟩ := exists_slot hgid
    have he : gid = UInt64.ofNat s.gid := by rw [hs]; simp
    obtain ⟨h2, h1⟩ := getLpInfo_slot hwf.positive hbound s
    rw [← he] at h1 h2
    have hrep : (s.rep : ℤ) < s.grp.repetitions := by exact_mod_cast s.rep_lt
    have hoff : (s.off : ℤ) < s.lpt.count := by exact_mod_cast s.off_lt
    refine ⟨_, _, h1, h2, ⟨rfl, rfl, rfl, rfl, rfl⟩, ?_, ?_⟩
    · exact ⟨s.grp, s.grp_mem, rfl, Int.natCast_nonneg _, hrep, s.lpt, s.lpt_mem, rfl, rfl,
        Int.natCast_nonneg _, hoff⟩
    · rw [he]; exact getLpId_slot hwf s
  · obtain ⟨s, rfl, rfl, hanno, rfl, rfl, hgid⟩ := slot_of_getLpId h
    obtain rfl := hanno rfl
    obtain ⟨h2, h1⟩ := getLpInfo_slot hwf.positive hbound s
    rw [← hgid] at h1 h2
    exact ⟨_, _, h1, h2, ⟨rfl, rfl, rfl, rfl, rfl⟩, rfl, rfl, rfl, rfl, rfl⟩
  · have h := groupScan_of_ge conf gid.toNat 0 0 (by omega) gid.toNat_lt
    have he : UInt64.ofNat gid.toNat = gid := by simp
    rw [he, show UInt64.ofNat 0 = (0 : Lpid) from rfl] at h
    rw [getLpInfo, getLpInfo2, h]
    exact ⟨rfl, rfl⟩

/-- The round trip on a configuration with an annotated and an unannotated type of one name. -/
theorem lpid_round_trip_two_groups :
    getLpInfo2 [⟨"A", 2, [⟨"nic", none, 1⟩, ⟨"nic", some "x", 2⟩]⟩, ⟨"B", 1, [⟨"svr", none, 3⟩]⟩]
    5 =
        .ok ⟨"A", "nic", some "x", 1, 1⟩ ∧
      getLpId [⟨"A", 2, [⟨"nic", none, 1⟩, ⟨"nic", some "x", 2⟩]⟩, ⟨"B", 1, [⟨"svr", none, 3⟩]⟩]
        (some "A") (some "nic") (some "x") false 1 1 = .ok 5 := by
  obtain ⟨h, -, -⟩ := lpid_round_trip
    [⟨"A", 2, [⟨"nic", none, 1⟩, ⟨"nic", some "x", 2⟩]⟩, ⟨"B", 1, [⟨"svr", none, 3⟩]⟩]
    (by decide) (by decide)
  obtain ⟨i, j, -, hj, -, -, hid⟩ := h 5 (by decide)
  have h5 : getLpInfo2 [⟨"A", 2, [⟨"nic", none, 1⟩, ⟨"nic", some "x", 2⟩]⟩,
      ⟨"B", 1, [⟨"svr", none, 3⟩]⟩] 5 = .ok ⟨"A", "nic", some "x", 1, 1⟩ := by decide
  rw [h5] at hj
  obtain rfl := Except.ok.inj hj
  exact ⟨h5, hid⟩

/-- **Two limits of the round trip.**  The annotation buffer filled by `getLpInfo` for an
unannotated LP (the empty string) is not accepted by `getLpId`; and in a configuration with more
than `2^64` LPs the 64-bit running sums wrap, so that an id below the total is not found. -/
theorem lpid_round_trip_limits :
    (∃ i, getLpInfo [⟨"G", 1, [⟨"nic", none, 1⟩]⟩] 0 = .ok i ∧
      getLpId [⟨"G", 1, [⟨"nic", none, 1⟩]⟩] (some i.groupName) (some i.lpTypeName)
        (some i.anno) false i.repId i.offset =
          .error (lpIdError (some "G") (some "nic") (some "") 0 0)) ∧
    (∃ conf : LpConf, conf.Wf ∧ (2 ^ 63 : Lpid).toNat < totalLps conf ∧
      getLpInfo conf (2 ^ 63) = .error (lpInfoError (2 ^ 63))) := by
  refine ⟨⟨⟨"G", 0, "nic", 0, "", 0, 0⟩, by decide, by decide⟩,
    [⟨"G", 2 ^ 31 - 1, [⟨"a", none, 2 ^ 31 - 1⟩, ⟨"b", none, 2 ^ 31 - 1⟩,
      ⟨"c", none, 2 ^ 31 - 1⟩, ⟨"d", none, 2 ^ 31 - 1⟩, ⟨"e", none, 2 ^ 31 - 1⟩]⟩],
    by decide +kernel, by decide +kernel, by decide +kernel⟩

end CodesMapping

end CodesSim
