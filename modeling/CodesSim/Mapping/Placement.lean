import CodesSim.Mapping.RoundTrip

/-!
# The placement of LPs on PEs

`codes_mapping.c` gives every PE (MPI rank) a range of consecutive LP ids; the first `N mod P` PEs
get one LP more than the others.  The rank of an LP, the range of a rank, the number of its LPs and
the index of an LP in the array of its rank are computed by four different formulas.

* `PeSplit.start` is the range in natural numbers; the ranges are consecutive (`start_le_start`) and
  cover all ids.
* `placement_partition` says that the four formulas agree with it, if the number of LPs of a rank
  is an `int`.
-/

namespace CodesSim.CodesMapping

/-! ### The formulas of the source -/

/-- A rank (`tw_peid`). -/
abbrev Peid := ℤ

/-- The conversion of a 64-bit word to `long`. -/
def toLong (w : Lpid) : ℤ := (w.toNat : ℤ).bmod (2 ^ 64)

/-- `mini`. -/
def mini (a b : ℤ) : ℤ := if a < b then a else b

/-- The variables that the mapping is computed from. -/
structure PeSplit where
  lpsPerPeFloor : Lpid
  lpsLeftover : Lpid

/-- What `codes_mapping_setup_with_seed_offset` stores for `nlps` LPs on `pes` PEs. -/
def PeSplit.setup (nlps : Lpid) (pes : ℕ) : PeSplit where
  lpsPerPeFloor := nlps / UInt64.ofNat pes
  lpsLeftover := nlps % UInt64.ofNat pes

namespace PeSplit

variable (s : PeSplit)

/-- `codes_mapping_get_lps_for_pe` on rank `mynode`. -/
def getLpsForPe (mynode : Peid) : ℤ :=
  toInt (s.lpsPerPeFloor + if ofInt mynode < s.lpsLeftover then 1 else 0)

/-- `codes_mapping`: the rank of an LP; `none` is a division by zero. -/
def codesMapping (gid : Lpid) : Option Peid :=
  let lpsOnPesWithLeftover := s.lpsLeftover * (s.lpsPerPeFloor + 1)
  if gid < lpsOnPesWithLeftover then
    if s.lpsPerPeFloor + 1 = 0 then none else some (toLong (gid / (s.lpsPerPeFloor + 1)))
  else if s.lpsPerPeFloor = 0 then none
  else some (toLong ((gid - lpsOnPesWithLeftover) / s.lpsPerPeFloor + s.lpsLeftover))

/-- `lp_start` of `codes_mapping_init` on rank `mynode`. -/
def lpStart (mynode : Peid) : Lpid :=
  ofInt mynode * s.lpsPerPeFloor + ofInt (mini (wrapInt mynode) (toInt s.lpsLeftover))

/-- `lp_end` of `codes_mapping_init` on rank `mynode`. -/
def lpEnd (mynode : Peid) : Lpid :=
  ofInt (mynode + 1) * s.lpsPerPeFloor + ofInt (mini (wrapInt (mynode + 1)) (toInt s.lpsLeftover))

/-- The index that `codes_mapping_to_lp` computes on rank `mynode`. -/
def localIndex (mynode : Peid) (lpid : Lpid) : ℤ :=
  toInt (lpid - ofInt mynode * s.lpsPerPeFloor -
    ofInt (mini (wrapInt mynode) (toInt s.lpsLeftover)))

end PeSplit

/-! ### Blocks of numbers -/

/-- The first of `n` numbers in block `p` of `pes` blocks; the first blocks have one more. -/
def blockStart (n pes p : ℕ) : ℕ := p * (n / pes) + min p (n % pes)

section

variable {n pes : ℕ}

theorem blockStart_zero : blockStart n pes 0 = 0 := by simp [blockStart]

theorem blockStart_last (h : 0 < pes) : blockStart n pes pes = n := by
  rw [blockStart, Nat.min_eq_right (Nat.mod_lt n h).le, Nat.div_add_mod]

theorem blockStart_succ (p : ℕ) :
    blockStart n pes (p + 1) = blockStart n pes p + (n / pes + if p < n % pes then 1 else 0) := by
  rw [blockStart, blockStart, Nat.add_mul, Nat.one_mul]
  split <;> omega

theorem blockStart_mono : Monotone (blockStart n pes) := by
  refine monotone_nat_of_le_succ fun p => ?_
  rw [blockStart_succ]
  exact Nat.le_add_right _ _

theorem block_unique {start : ℕ → ℕ} (hmono : Monotone start) {p q x : ℕ} (hp : start p ≤ x)
    (hp' : x < start (p + 1)) (hq : start q ≤ x) (hq' : x < start (q + 1)) : p = q := by
  rcases Nat.lt_trichotomy p q with hlt | heq | hgt
  · have := hmono (show p + 1 ≤ q from hlt)
    omega
  · exact heq
  · have := hmono (show q + 1 ≤ p from hgt)
    omega

/-- The block of a number, by the two branches of `codes_mapping`. -/
def blockOf (n pes x : ℕ) : ℕ :=
  if x < n % pes * (n / pes + 1) then x / (n / pes + 1)
  else (x - n % pes * (n / pes + 1)) / (n / pes) + n % pes

/-- Behind the longer blocks there are others only if these are not empty. -/
theorem floor_pos_of_ge {x : ℕ} (hx : x < n) (hge : n % pes * (n / pes + 1) ≤ x) : 0 < n / pes := by
  have hn := Nat.div_add_mod n pes
  rcases Nat.eq_zero_or_pos (n / pes) with h0 | h0
  · rw [h0] at hn hge
    omega
  · exact h0

theorem blockOf_spec {x : ℕ} (hpes : 0 < pes) (hx : x < n) :
    blockOf n pes x < pes ∧ blockStart n pes (blockOf n pes x) ≤ x ∧
      x < blockStart n pes (blockOf n pes x + 1) := by
  have hn := Nat.div_add_mod n pes
  have hr := Nat.mod_lt n hpes
  have hfloor := @floor_pos_of_ge n pes x hx
  rw [blockStart_succ]
  unfold blockOf blockStart
  generalize n / pes = q at hn hfloor ⊢
  generalize n % pes = r at hn hr hfloor ⊢
  split
  · -- among the longer blocks
    rename_i hlt
    have hp : x / (q + 1) < r := by rwa [Nat.div_lt_iff_lt_mul (Nat.succ_pos _)]
    have hdiv := Nat.div_add_mod x (q + 1)
    have hmod := Nat.mod_lt x (show 0 < q + 1 by omega)
    generalize x / (q + 1) = p at hp hdiv ⊢
    have hmul : (q + 1) * p = p * q + p := by rw [Nat.mul_comm, Nat.mul_succ]
    rw [if_pos hp, Nat.min_eq_left hp.le]
    omega
  · rename_i hge
    have hpos := hfloor (Nat.not_lt.1 hge)
    have hmul : r * (q + 1) = r * q + r := Nat.mul_succ _ _
    have hdiv := Nat.div_add_mod (x - r * (q + 1)) q
    have hmod := Nat.mod_lt (x - r * (q + 1)) hpos
    have hlt : (x - r * (q + 1)) / q < pes - r := by
      rw [Nat.div_lt_iff_lt_mul hpos, Nat.sub_mul, Nat.mul_comm pes]
      have hcomm := Nat.mul_comm pes q
      omega
    generalize (x - r * (q + 1)) / q = p at hdiv hlt ⊢
    have hsum : (p + r) * q = q * p + r * q := by rw [Nat.add_mul, Nat.mul_comm p]
    rw [if_neg (by omega), Nat.min_eq_right (by omega)]
    omega

end

/-! ### The formulas and the blocks -/

section

variable {n pes : ℕ}

theorem toLong_word {m : ℕ} (h : m < 2 ^ 63) : toLong (UInt64.ofNat m) = m := by
  have hw : (UInt64.ofNat m).toNat = m := toNat_word (by omega)
  have hb : (m : ℤ).bmod (2 ^ 64) = m := by apply Int.bmod_eq_of_le_mul_two <;> omega
  unfold toLong
  rw [hw, hb]

theorem word_sub_sub (a b c : Lpid) : a - b - c = a - (b + c) := by
  rw [UInt64.sub_eq_add_neg, UInt64.sub_eq_add_neg, UInt64.add_assoc, UInt64.add_neg_eq_sub,
    ← UInt64.neg_add, ← UInt64.sub_eq_add_neg]

theorem word_succ (m : ℕ) : UInt64.ofNat m + 1 = UInt64.ofNat (m + 1) := by
  simp [UInt64.ofNat_add]

theorem mini_natCast (a b : ℕ) : mini a b = (min a b : ℕ) := by
  rw [mini]
  split <;> omega

theorem setup_eq (hn : n < 2 ^ 64) (hpes : pes < 2 ^ 31) :
    PeSplit.setup (UInt64.ofNat n) pes = ⟨UInt64.ofNat (n / pes), UInt64.ofNat (n % pes)⟩ := by
  have hp : pes < 2 ^ 64 := by omega
  have hdiv : n / pes < 2 ^ 64 := (Nat.div_le_self n pes).trans_lt hn
  have hmod : n % pes < 2 ^ 64 := (Nat.mod_le n pes).trans_lt hn
  rw [PeSplit.setup]
  congr 1
  · rw [← UInt64.toNat_inj, UInt64.toNat_div, toNat_word hn, toNat_word hp, toNat_word hdiv]
  · rw [← UInt64.toNat_inj, UInt64.toNat_mod, toNat_word hn, toNat_word hp, toNat_word hmod]

variable (hn : n < 2 ^ 64) (hpos : 0 < pes) (hpes : pes < 2 ^ 31)

include hn hpos hpes

theorem lpStart_eq {p : ℕ} (hp : p < 2 ^ 31) :
    (PeSplit.setup (UInt64.ofNat n) pes).lpStart p = UInt64.ofNat (blockStart n pes p) := by
  have hr : n % pes < pes := Nat.mod_lt n hpos
  rw [setup_eq hn hpes, PeSplit.lpStart, toInt_word (by omega), wrapInt_natCast hp, mini_natCast,
    ofInt_natCast, ofInt_natCast, blockStart, UInt64.ofNat_add, UInt64.ofNat_mul]

theorem lpEnd_eq {p : ℕ} (hp : p < pes) :
    (PeSplit.setup (UInt64.ofNat n) pes).lpEnd p = UInt64.ofNat (blockStart n pes (p + 1)) :=
  lpStart_eq hn hpos hpes (p := p + 1) (by omega)

theorem getLpsForPe_eq {p : ℕ} (hp : p < pes)
    (hfit : blockStart n pes (p + 1) - blockStart n pes p < 2 ^ 31) :
    (PeSplit.setup (UInt64.ofNat n) pes).getLpsForPe p =
      ((blockStart n pes (p + 1) - blockStart n pes p : ℕ) : ℤ) := by
  have hr : n % pes < pes := Nat.mod_lt n hpos
  have hlt : (UInt64.ofNat p < UInt64.ofNat (n % pes)) ↔ p < n % pes :=
    word_lt (by omega) (by omega)
  rw [blockStart_succ, Nat.add_sub_cancel_left] at hfit ⊢
  rw [setup_eq hn hpes, PeSplit.getLpsForPe, ofInt_natCast]
  by_cases h : p < n % pes
  · rw [if_pos (hlt.2 h)]
    rw [if_pos h] at hfit ⊢
    rw [word_succ]
    exact toInt_word hfit
  · rw [if_neg (mt hlt.1 h)]
    rw [if_neg h] at hfit ⊢
    rw [UInt64.add_zero]
    exact toInt_word hfit

theorem codesMapping_eq {x : ℕ} (hx : x < n) :
    (PeSplit.setup (UInt64.ofNat n) pes).codesMapping (UInt64.ofNat x) =
      some (blockOf n pes x : ℤ) := by
  have hr : n % pes < pes := Nat.mod_lt n hpos
  have hdiv := Nat.div_add_mod n pes
  have hlt := (blockOf_spec hpos hx).1
  have hfloor := @floor_pos_of_ge n pes x hx
  rw [setup_eq hn hpes]
  unfold blockOf at hlt ⊢
  unfold PeSplit.codesMapping
  generalize n / pes = q at hdiv hfloor hlt ⊢
  generalize n % pes = r at hr hdiv hfloor hlt ⊢
  have hmul : r * (q + 1) = r * q + r := Nat.mul_succ r q
  have hle : r * q ≤ pes * q := Nat.mul_le_mul_right q hr.le
  have hword : UInt64.ofNat r * (UInt64.ofNat q + 1) = UInt64.ofNat (r * (q + 1)) := by
    rw [word_succ, UInt64.ofNat_mul]
  have hiff : UInt64.ofNat x < UInt64.ofNat (r * (q + 1)) ↔ x < r * (q + 1) :=
    word_lt (by omega) (by omega)
  simp only [hword, hiff]
  split
  · rename_i hx'
    rw [if_pos hx'] at hlt
    -- there are two ranks at least, so the successor of the floor is no overflow
    have hr0 : 0 < r := by
      by_contra h0
      have : r = 0 := by omega
      simp [this] at hx'
    have htwo : 2 * q ≤ pes * q := Nat.mul_le_mul_right q (by omega)
    have hq : q + 1 < 2 ^ 64 := by omega
    have hne : UInt64.ofNat (q + 1) ≠ 0 := by
      rw [Ne, ← UInt64.toNat_inj, toNat_word hq]
      simp
    have hquot : UInt64.ofNat x / UInt64.ofNat (q + 1) = UInt64.ofNat (x / (q + 1)) := by
      rw [← UInt64.toNat_inj, UInt64.toNat_div, toNat_word (by omega), toNat_word hq,
        toNat_word (by omega)]
    rw [word_succ, if_neg hne, hquot, toLong_word (by omega)]
  · rename_i hx'
    rw [if_neg hx'] at hlt
    have hq0 := hfloor (Nat.not_lt.1 hx')
    have hq : q < 2 ^ 64 := by
      have := Nat.le_mul_of_pos_left q hpos
      omega
    have hne : UInt64.ofNat q ≠ 0 := by
      rw [Ne, ← UInt64.toNat_inj, toNat_word hq]
      simpa using hq0.ne'
    have hsub : UInt64.ofNat x - UInt64.ofNat (r * (q + 1)) = UInt64.ofNat (x - r * (q + 1)) := by
      rw [← UInt64.toNat_inj, UInt64.toNat_sub_of_le _ _ (by
        rw [UInt64.le_iff_toNat_le, toNat_word (by omega), toNat_word (by omega)]; omega),
        toNat_word (by omega), toNat_word (by omega), toNat_word (by omega)]
    have hquot : UInt64.ofNat (x - r * (q + 1)) / UInt64.ofNat q + UInt64.ofNat r =
        UInt64.ofNat ((x - r * (q + 1)) / q + r) := by
      rw [UInt64.ofNat_add]
      congr 1
      have hle := Nat.div_le_self (x - r * (q + 1)) q
      rw [← UInt64.toNat_inj, UInt64.toNat_div, toNat_word (by omega), toNat_word hq,
        toNat_word (by omega)]
    rw [if_neg hne, hsub, hquot, toLong_word (by omega)]

theorem localIndex_eq {p x : ℕ} (hp : p < pes) (hx : blockStart n pes p ≤ x) (hx' : x < 2 ^ 64)
    (hfit : x - blockStart n pes p < 2 ^ 31) :
    (PeSplit.setup (UInt64.ofNat n) pes).localIndex p (UInt64.ofNat x) =
      ((x - blockStart n pes p : ℕ) : ℤ) := by
  have hstart := lpStart_eq hn hpos hpes (p := p) (by omega)
  rw [PeSplit.lpStart] at hstart
  have hsub : UInt64.ofNat x - UInt64.ofNat (blockStart n pes p) =
      UInt64.ofNat (x - blockStart n pes p) := by
    rw [← UInt64.toNat_inj, UInt64.toNat_sub_of_le _ _ (by
      rw [UInt64.le_iff_toNat_le, toNat_word hx', toNat_word (by omega)]; omega),
      toNat_word hx', toNat_word (by omega), toNat_word (by omega)]
  rw [PeSplit.localIndex, word_sub_sub, hstart, hsub]
  exact toInt_word hfit

end

/-! ### The ranks share the LPs -/

/-- The LPs of the ranks are counted by `int`s. -/
def RanksFit (n pes : ℕ) : Prop := (n + pes - 1) / pes < 2 ^ 31

instance (n pes : ℕ) : Decidable (RanksFit n pes) := inferInstanceAs (Decidable (_ < _))

theorem RanksFit.blockSize_lt {n pes : ℕ} (h : RanksFit n pes) (hpos : 0 < pes) (p : ℕ) :
    blockStart n pes (p + 1) - blockStart n pes p < 2 ^ 31 := by
  have hdiv := Nat.div_add_mod n pes
  have hle : (n / pes + if p < n % pes then 1 else 0) ≤ (n + pes - 1) / pes := by
    rw [Nat.le_div_iff_mul_le hpos]
    split
    · rw [Nat.add_mul, Nat.mul_comm (n / pes)]
      omega
    · rw [Nat.add_zero, Nat.mul_comm]
      omega
  rw [blockStart_succ, Nat.add_sub_cancel_left]
  exact hle.trans_lt h

/-- `gid` is in the range of LPs that rank `mynode` sets up. -/
def PeSplit.Holds (s : PeSplit) (mynode : Peid) (gid : Lpid) : Prop :=
  s.lpStart mynode ≤ gid ∧ gid < s.lpEnd mynode

instance (s : PeSplit) (mynode : Peid) (gid : Lpid) : Decidable (s.Holds mynode gid) :=
  inferInstanceAs (Decidable (_ ∧ _))

theorem holds_iff {n pes p x : ℕ} (hn : n < 2 ^ 64) (hpes : pes < 2 ^ 31) (hp : p < pes)
    (hx : x < 2 ^ 64) : (PeSplit.setup (UInt64.ofNat n) pes).Holds p (UInt64.ofNat x) ↔
      blockStart n pes p ≤ x ∧ x < blockStart n pes (p + 1) := by
  have hpos : 0 < pes := by omega
  have hend : blockStart n pes (p + 1) ≤ n :=
    (blockStart_mono (show p + 1 ≤ pes from hp)).trans (blockStart_last hpos).le
  have hle : blockStart n pes p ≤ blockStart n pes (p + 1) := blockStart_mono (Nat.le_succ p)
  rw [PeSplit.Holds, lpStart_eq hn hpos hpes (by omega), lpEnd_eq hn hpos hpes hp,
    word_lt hx (by omega), UInt64.le_iff_toNat_le, toNat_word (by omega), toNat_word hx]

/-- **The placement is a partition on which all formulas agree.**  Every LP is in the range of
exactly one rank, the one that `codes_mapping` returns, and its index there is its distance from the
first LP of the rank; the ranges are consecutive, as long as `codes_mapping_get_lps_for_pe` says,
and cover all ids. -/
theorem placement_partition (n pes : ℕ) (hn : n < 2 ^ 64) (hpos : 0 < pes) (hpes : pes < 2 ^ 31)
    (hfit : RanksFit n pes) (s : PeSplit) (hs : s = .setup (UInt64.ofNat n) pes) :
    (∀ gid : Lpid, gid.toNat < n → ∃ p : ℕ, p < pes ∧ s.codesMapping gid = some (p : ℤ) ∧
      s.Holds p gid ∧ (∀ q : ℕ, q < pes → s.Holds q gid → q = p) ∧
      s.localIndex p gid = ((gid - s.lpStart p).toNat : ℤ) ∧
      s.localIndex p gid < s.getLpsForPe p) ∧
    (∀ p : ℕ, p < pes → ((s.lpEnd p - s.lpStart p).toNat : ℤ) = s.getLpsForPe p ∧
      s.lpStart p ≤ s.lpEnd p ∧ s.lpEnd p = s.lpStart (p + 1 : ℕ)) ∧
    s.lpStart 0 = 0 ∧ s.lpStart pes = UInt64.ofNat n := by
  subst hs
  have hend : ∀ p < pes, blockStart n pes (p + 1) ≤ n := fun p hp =>
    (blockStart_mono (show p + 1 ≤ pes from hp)).trans (blockStart_last hpos).le
  have hsub : ∀ x y : ℕ, x ≤ y → y < 2 ^ 64 →
      UInt64.ofNat y - UInt64.ofNat x = UInt64.ofNat (y - x) := by
    intro x y hxy hy
    rw [← UInt64.toNat_inj, UInt64.toNat_sub_of_le _ _ (by
      rw [UInt64.le_iff_toNat_le, toNat_word hy, toNat_word (by omega)]
      exact hxy), toNat_word hy, toNat_word (by omega), toNat_word (by omega)]
  refine ⟨fun gid hgid => ?_, fun p hp => ?_, ?_, ?_⟩
  · have hgid64 : gid.toNat < 2 ^ 64 := gid.toNat_lt
    have he : gid = UInt64.ofNat gid.toNat := by simp
    generalize gid.toNat = x at hgid hgid64 he
    subst he
    obtain ⟨hp, hstart, hstop⟩ := blockOf_spec hpos hgid
    have hmap := codesMapping_eq hn hpos hpes hgid
    generalize blockOf n pes x = p at hp hstart hstop hmap
    have hfits := hfit.blockSize_lt hpos p
    have hindex := localIndex_eq hn hpos hpes hp hstart hgid64 (by omega)
    refine ⟨p, hp, hmap, (holds_iff hn hpes hp hgid64).2 ⟨hstart, hstop⟩, fun q hq hheld => ?_,
      ?_, ?_⟩
    · obtain ⟨h1, h2⟩ := (holds_iff hn hpes hq hgid64).1 hheld
      exact block_unique blockStart_mono h1 h2 hstart hstop
    · rw [hindex, lpStart_eq hn hpos hpes (by omega), hsub _ _ hstart hgid64, toNat_word (by omega)]
    · rw [hindex, getLpsForPe_eq hn hpos hpes hp hfits]
      omega
  · have hle : blockStart n pes p ≤ blockStart n pes (p + 1) := blockStart_mono (Nat.le_succ p)
    have hfits := hfit.blockSize_lt hpos p
    have hlast := hend p hp
    rw [lpStart_eq hn hpos hpes (by omega), lpEnd_eq hn hpos hpes hp, hsub _ _ hle (by omega),
      toNat_word (by omega), getLpsForPe_eq hn hpos hpes hp hfits,
      lpStart_eq hn hpos hpes (p := p + 1) (by omega), UInt64.le_iff_toNat_le,
      toNat_word (by omega), toNat_word (by omega)]
    exact ⟨rfl, hle, rfl⟩
  · have := lpStart_eq hn hpos hpes (p := 0) (by omega)
    rwa [blockStart_zero] at this
  · rw [lpStart_eq hn hpos hpes hpes, blockStart_last hpos]

/-- Seven LPs on three ranks: LP 4 is the second one of rank 1. -/
theorem placement_partition_seven :
    (PeSplit.setup 7 3).codesMapping 4 = some 1 ∧ (PeSplit.setup 7 3).Holds 1 4 ∧
      (PeSplit.setup 7 3).localIndex 1 4 = 1 := by
  obtain ⟨h, -⟩ := placement_partition 7 3 (by decide) (by decide) (by decide) (by decide)
    (.setup 7 3) rfl
  obtain ⟨p, -, hmap, hheld, -, hindex, -⟩ := h 4 (by decide)
  have h4 : (PeSplit.setup 7 3).codesMapping 4 = some 1 := by decide
  rw [h4] at hmap
  have hp : (p : ℤ) = 1 := (Option.some.inj hmap).symm
  rw [hp] at hheld hindex
  exact ⟨h4, hheld, hindex.trans (by decide)⟩

/-- **A limit of the placement.**  With `2^31` LPs on one rank their number is no `int`. -/
theorem placement_partition_limit :
    (PeSplit.setup (2 ^ 31) 1).lpStart 0 = 0 ∧ (PeSplit.setup (2 ^ 31) 1).lpEnd 0 = 2 ^ 31 ∧
      (PeSplit.setup (2 ^ 31) 1).getLpsForPe 0 = -2 ^ 31 ∧
      (((PeSplit.setup (2 ^ 31) 1).lpEnd 0 - (PeSplit.setup (2 ^ 31) 1).lpStart 0).toNat : ℤ) ≠
        (PeSplit.setup (2 ^ 31) 1).getLpsForPe 0 := by
  decide +kernel

end CodesSim.CodesMapping
