import CodesSim.Mapping.Context
import CodesSim.Synthetic.Steps
import Mathlib.Tactic.Linarith

/-!
# Destinations of synthetic traffic

Which ranks the patterns lead to.  All of them stay among the ranks of the job, with two exceptions
(`Traffic.Fits`): the last row of a stencil may be cut off, and half of a very large job may be too
far away for an `int`.
-/

namespace CodesSim.Synthetic

open CodesMapping Replay

/-! ### Distances -/

section Shift

variable {localRank step n : ℤ}

theorem shiftRank_of_lt (h0 : 0 ≤ localRank) (hstep : 0 ≤ step) (h : localRank + step < 2 ^ 31) :
    shiftRank localRank step n = (localRank + step) % n := by
  rw [shiftRank, wrapInt_of_range (by omega) h, Int.tmod_eq_emod_of_nonneg (by omega)]

/-- A sum beyond the largest `int` is negative, and so is its remainder. -/
theorem shiftRank_of_ge (h : 2 ^ 31 ≤ localRank + step) (h' : localRank + step < 2 ^ 32) :
    shiftRank localRank step n = -((2 ^ 32 - (localRank + step)) % n) := by
  have hwrap : wrapInt (localRank + step) = -(2 ^ 32 - (localRank + step)) := by
    rw [wrapInt, Int.bmod_def]
    omega
  rw [shiftRank, hwrap, Int.neg_tmod, Int.tmod_eq_emod_of_nonneg (by omega)]

/-- The sum of a rank and a distance fits into an `int`, or what is left of it is a multiple. -/
def ShiftFits (localRank step n : ℤ) : Prop :=
  localRank + step < 2 ^ 31 ∨ n ∣ 2 ^ 32 - (localRank + step)

/-- **Distances stay in the job** if the sum fits. -/
theorem shiftRank_valid_iff (h0 : 0 ≤ localRank) (hlt : localRank < n) (hstep : 0 ≤ step)
    (hstep' : step ≤ n) (hn : n < 2 ^ 31) :
    (0 ≤ shiftRank localRank step n ∧ shiftRank localRank step n < n) ↔
      ShiftFits localRank step n := by
  have hpos : 0 < n := by omega
  by_cases hsum : localRank + step < 2 ^ 31
  · rw [shiftRank_of_lt h0 hstep hsum]
    exact iff_of_true ⟨Int.emod_nonneg _ hpos.ne', Int.emod_lt_of_pos _ hpos⟩ (.inl hsum)
  · rw [shiftRank_of_ge (by omega) (by omega), ShiftFits, Int.dvd_iff_emod_eq_zero]
    have hge := Int.emod_nonneg (2 ^ 32 - (localRank + step)) hpos.ne'
    omega

theorem shiftRank_ne (h0 : 0 ≤ localRank) (hlt : localRank < n) (hstep : 0 < step)
    (hstep' : step < n) (hn : n < 2 ^ 31) : shiftRank localRank step n ≠ localRank := by
  by_cases hsum : localRank + step < 2 ^ 31
  · rw [shiftRank_of_lt h0 hstep.le hsum]
    by_cases hwrap : localRank + step < n
    · rw [Int.emod_eq_of_lt (by omega) hwrap]
      omega
    · rw [← Int.sub_emod_right, Int.emod_eq_of_lt (by omega) (by omega)]
      omega
  · rw [shiftRank_of_ge (by omega) (by omega)]
    have hge := Int.emod_nonneg (2 ^ 32 - (localRank + step)) (by omega : n ≠ 0)
    omega

end Shift

/-! ### Stencils -/

theorem two_pow_countDigits {fuel : ℕ} {temp : ℤ} (h : 0 < temp) (digits : ℕ) :
    (2 : ℤ) ^ countDigits fuel temp digits ≤ 2 ^ (digits + 1) * temp := by
  induction fuel generalizing temp digits with
  | zero =>
    have hpos : (0 : ℤ) < 2 ^ digits := by positivity
    rw [countDigits, pow_succ]
    nlinarith
  | succ fuel ih =>
    rw [countDigits, if_pos h]
    by_cases hhalf : 0 < temp / 2
    · have hle : 2 * (temp / 2) ≤ temp := by omega
      calc (2 : ℤ) ^ countDigits fuel (temp / 2) (digits + 1)
          ≤ 2 ^ (digits + 1 + 1) * (temp / 2) := ih hhalf (digits + 1)
        _ = 2 ^ (digits + 1) * (2 * (temp / 2)) := by ring
        _ ≤ 2 ^ (digits + 1) * temp := by gcongr
    · obtain rfl : temp = 1 := by omega
      have hdone : countDigits fuel (1 / 2) (digits + 1) = digits + 1 := by
        cases fuel <;> simp [countDigits]
      rw [hdone, mul_one]

section Stencil

variable {localRank n : ℤ}

theorem stencilX_pos (n : ℤ) : 0 < stencilX n := by
  unfold stencilX
  positivity

theorem stencilX_le (hn : 2 ≤ n) : stencilX n ≤ n := by
  have hsq : stencilX n * stencilX n ≤ 2 * n := by
    calc stencilX n * stencilX n = 2 ^ (countDigits 32 n 0 / 2 * 2) := by
          unfold stencilX
          rw [pow_mul, sq]
      _ ≤ 2 ^ countDigits 32 n 0 := pow_le_pow_right₀ (by decide) (Nat.div_mul_le_self _ _)
      _ ≤ 2 ^ (0 + 1) * n := two_pow_countDigits (by omega) 0
      _ = 2 * n := by ring
  have hpos := stencilX_pos n
  nlinarith

theorem stencilY_eq (hn : 2 ≤ n) : stencilY n = n / stencilX n :=
  Int.tdiv_eq_ediv_of_nonneg (by omega)

theorem stencilY_pos (hn : 2 ≤ n) : 0 < stencilY n := by
  rw [stencilY_eq hn]
  exact (Int.le_ediv_iff_mul_le (stencilX_pos n)).2 (by simpa using stencilX_le hn)

theorem stencilX_mul_stencilY (hn : 2 ≤ n) : stencilX n * stencilY n ≤ n := by
  rw [stencilY_eq hn]
  exact Int.mul_ediv_self_le (stencilX_pos n).ne'

/-- The row of a rank is complete, or the rank and its neighbours to both sides are in what is left
of the last one. -/
def StencilFits (localRank n : ℤ) : Prop :=
  (localRank / stencilY n + 1) * stencilY n ≤ n ∨
    (0 < localRank % stencilY n ∧ localRank + 1 < n)

/-- **Neighbours in a stencil** are ranks exactly if the row is long enough.  Those above and below
are always. -/
theorem stencilDests_valid_iff (hn : 2 ≤ n) (h0 : 0 ≤ localRank) (hlt : localRank < n) :
    (∀ dest ∈ stencilDests localRank n, 0 ≤ dest ∧ dest < n) ↔ StencilFits localRank n := by
  have hy := stencilY_pos hn
  have hx := stencilX_pos n
  have hxy := stencilX_mul_stencilY hn
  unfold stencilDests StencilFits
  generalize stencilX n = x at *
  generalize stencilY n = y at *
  have hsplit := Int.mul_ediv_add_emod localRank y
  have hrow := Int.ediv_nonneg h0 hy.le
  have hcol := Int.emod_nonneg localRank hy.ne'
  have hcol' := Int.emod_lt_of_pos localRank hy
  simp only [Int.tdiv_eq_ediv_of_nonneg h0, Int.tmod_eq_emod_of_nonneg h0]
  generalize localRank / y = row at *
  generalize localRank % y = col at *
  rw [Int.tmod_eq_emod_of_nonneg (show 0 ≤ col - 1 + y by omega),
    Int.tmod_eq_emod_of_nonneg (show 0 ≤ col + 1 + y by omega),
    Int.tmod_eq_emod_of_nonneg (show 0 ≤ row - 1 + x by omega),
    Int.tmod_eq_emod_of_nonneg (show 0 ≤ row + 1 + x by omega)]
  have hvert : ∀ k : ℤ, 0 ≤ k % x * y + col ∧ k % x * y + col < n := fun k => by
    have hk := Int.emod_nonneg k hx.ne'
    have hk' := Int.emod_lt_of_pos k hx
    have hle : (k % x + 1) * y ≤ x * y := by gcongr; omega
    have hnonneg : 0 ≤ k % x * y := by positivity
    rw [add_mul, one_mul] at hle
    omega
  have hleft : (col - 1 + y) % y = if col = 0 then y - 1 else col - 1 := by
    split_ifs with hzero
    · rw [hzero, Int.emod_eq_of_lt (by omega) (by omega)]
      ring
    · rw [Int.add_emod_right, Int.emod_eq_of_lt (by omega) (by omega)]
  have hright : (col + 1 + y) % y = if col + 1 = y then 0 else col + 1 := by
    rw [Int.add_emod_right]
    split_ifs with hlast
    · rw [hlast, Int.emod_self]
    · rw [Int.emod_eq_of_lt (by omega) (by omega)]
  have hP : 0 ≤ row * y := by positivity
  have hsum : row * y + col = localRank := by rw [mul_comm]; exact hsplit
  simp only [List.mem_cons, List.not_mem_nil, or_false, forall_eq_or_imp, forall_eq, hvert,
    and_true, hleft, hright, add_mul, one_mul]
  split_ifs with hzero hlast hlast <;> omega

end Stencil

/-! ### Permutations -/

section Permutation

variable {c : SynCtx} {n : ℤ} {e : GenEv}

/-- Another rank of the job. -/
def Other (localRank n dest : ℤ) : Prop := (0 ≤ dest ∧ dest < n) ∧ dest ≠ localRank

theorem otherRank_other {localRank drawn : ℤ} (hn : 2 ≤ n) (hint : n < 2 ^ 31)
    (h0 : 0 ≤ localRank) (hlt : localRank < n) (hfits : ShiftFits localRank (Int.tdiv n 2) n)
    (hdrawn : 0 ≤ drawn) (hdrawn' : drawn ≤ n - 1) :
    Other localRank n (otherRank localRank (Int.tdiv n 2) n drawn) := by
  have hhalf : Int.tdiv n 2 = n / 2 := Int.tdiv_eq_ediv_of_nonneg (by omega)
  rw [hhalf] at hfits ⊢
  unfold otherRank
  split_ifs with hself
  · exact ⟨(shiftRank_valid_iff h0 hlt (by omega) (by omega) hint).2 hfits,
      shiftRank_ne h0 hlt (by omega) (by omega) hint⟩
  · exact ⟨⟨hdrawn, by omega⟩, hself⟩

theorem GenEv.draw_mem (c : SynCtx) (hn : 2 ≤ n) (e : GenEv) :
    0 ≤ (GenEv.draw c (n - 1) e).1 ∧ (GenEv.draw c (n - 1) e).1 ≤ n - 1 :=
  ⟨c.rng.lower _ _ _ (by omega), c.rng.upper _ _ _ (by omega)⟩

theorem permInit_localRank (c : SynCtx) (n : ℤ) (e : GenEv) :
    (permInit c n e).s.localRank = e.s.localRank := by
  rcases permInit_eq c n e with h | ⟨dest, h⟩ <;> rw [h]

theorem permSwitch_localRank (c : SynCtx) (n : ℤ) (e : GenEv) :
    (permSwitch c n e).s.localRank = e.s.localRank := by
  rcases permSwitch_eq c n e with h | ⟨dest, h⟩ <;> rw [h]

theorem permutation_other (hn : 2 ≤ n) (hint : n < 2 ^ 31) (h0 : 0 ≤ e.s.localRank)
    (hlt : e.s.localRank < n) (hfits : ShiftFits e.s.localRank (Int.tdiv n 2) n)
    (hsaved : e.s.genData = 0 ∨ Other e.s.localRank n e.s.savedPermDest) :
    Other e.s.localRank n (permSwitch c n (permInit c n e)).s.savedPermDest := by
  have hinit : Other e.s.localRank n (permInit c n e).s.savedPermDest := by
    rw [permInit]
    split_ifs with hzero
    · have hdraw := GenEv.draw_mem c hn (e.setBf fun b => { b with c7 := true })
      exact otherRank_other hn hint h0 hlt hfits hdraw.1 hdraw.2
    · exact hsaved.resolve_left hzero
  have hlocal := permInit_localRank c n e
  generalize permInit c n e = e₁ at *
  rw [permSwitch]
  split_ifs with hthresh
  · have hdraw := GenEv.draw_mem c hn ((e₁.setBf fun b => { b with c2 := true }).setState fun s =>
      { s with prevSwitch := s.genData })
    rw [← hlocal] at h0 hlt hfits ⊢
    exact otherRank_other hn hint h0 hlt hfits hdraw.1 hdraw.2
  · exact hinit

theorem permutationDest_mem {destSvr : List ℤ} {e' : GenEv}
    (h : permutationDest c n e = .ok (destSvr, e')) :
    (permSwitch c n (permInit c n (e.setMsg fun m =>
      { m with savedPrevSwitch := e.s.prevSwitch }.setPerm e.s.savedPermDest))).s.savedPermDest ∈
        destSvr := by
  simp only [permutationDest] at h
  split_ifs at h
  obtain ⟨rfl, -⟩ := Prod.mk.inj (Except.ok.inj h)
  exact List.mem_cons_self

theorem permutationDest_ok (hn : 2 ≤ n) (hint : n < 2 ^ 31) (h0 : 0 ≤ e.s.localRank)
    (hlt : e.s.localRank < n) (hfits : ShiftFits e.s.localRank (Int.tdiv n 2) n)
    (hsaved : e.s.genData = 0 ∨ Other e.s.localRank n e.s.savedPermDest) :
    ∃ dest e', permutationDest c n e = .ok ([dest], e') ∧ e'.s.savedPermDest = dest ∧
      Other e.s.localRank n dest := by
  have hother := permutation_other (c := c)
    (e := e.setMsg fun m => { m with savedPrevSwitch := e.s.prevSwitch }.setPerm e.s.savedPermDest)
    hn hint h0 hlt hfits hsaved
  refine ⟨_, _, if_neg ?_, rfl, hother⟩
  rw [permSwitch_localRank, permInit_localRank]
  exact hother.2

end Permutation

/-! ### All patterns -/

/-- The pattern leads a rank to ranks only. -/
def Traffic.Fits (localRank n : ℤ) : Traffic → Prop
  | .stencil => StencilFits localRank n
  | .permutation | .bisection => ShiftFits localRank (Int.tdiv n 2) n
  | .uniform | .nearestNeighbor | .alltoall => True

variable {c : SynCtx} {n : ℤ}

/-- A permutation has a destination as soon as there was traffic. -/
def SynState.PermReady (n : ℤ) (s : SynState) : Prop :=
  s.genData = 0 ∨ Other s.localRank n s.savedPermDest

theorem afterSends_savedPermDest (c : SynCtx) (e : GenEv) :
    (afterSends c e).s.savedPermDest = e.s.savedPermDest ∧
      (afterSends c e).s.localRank = e.s.localRank := by
  by_cases h : AtLimit c e.s
  · rw [(afterSends_of_atLimit h).1]
    exact ⟨rfl, rfl⟩
  · rw [(afterSends_of_not h).1]
    exact ⟨rfl, rfl⟩

theorem SynState.PermReady.step {s s' : SynState} (hn : 2 ≤ n) (hint : n < 2 ^ 31)
    (h0 : 0 ≤ s.localRank) (hlt : s.localRank < n)
    (hfits : ShiftFits s.localRank (Int.tdiv n 2) n) (hpattern : s.syntheticPattern = .permutation)
    (hnum : c.jobmap.getNumRanks (c.jobmap.toLocalId s.nwId).job = n) (h : s.PermReady n)
    {l : SynLabel} (hstep : (synMachine c).step s l = some s') : s'.PermReady n := by
  cases l with
  | fin now m => cases hstep; exact h
  | others numSynBytesSent sample => cases hstep; exact h
  | gen now m =>
    obtain ⟨e', hgen, rfl⟩ := Outcome.map_eq_ok (Outcome.toOption_eq_some hstep)
    cases hfin : s.isFinished with
    | true =>
      rw [genSyntheticTr, show (GenEv.start s m).s.isFinished = true from hfin, if_pos rfl] at hgen
      obtain rfl := Except.ok.inj hgen
      exact h
    | false =>
      obtain ⟨destSvr, e₁, outs, hfind, rfl⟩ := genSyntheticTr_ok hgen hfin
      have hnum' : (c.at now).jobmap.getNumRanks
          ((c.at now).jobmap.toLocalId (GenEv.start s m).s.nwId).job = n := hnum
      rw [hnum'] at hfind
      obtain ⟨draws, prevSwitch, savedPermDest, hframe⟩ := (findDestinations_found rfl hfind).frame
      rw [findDestinations, show (GenEv.start s m).s.syntheticPattern = .permutation from hpattern]
        at hfind
      obtain ⟨dest, e₂, hdest, hsaved, hother⟩ :=
        permutationDest_ok (c := c.at now) (e := .start s m) hn hint h0 hlt hfits h
      obtain ⟨-, rfl⟩ := Prod.mk.inj (Except.ok.inj (hfind.symm.trans hdest))
      refine .inr ?_
      obtain ⟨hdest', hlocal⟩ := afterSends_savedPermDest (c.at now)
        (sentEv (c.at now) destSvr e₁ outs)
      have hlocal' : (sentEv (c.at now) destSvr e₁ outs).s.localRank = s.localRank := by
        rw [sentEv, hframe]
        rfl
      have hdest'' : (sentEv (c.at now) destSvr e₁ outs).s.savedPermDest = dest := hsaved
      rw [hdest', hlocal, hlocal', hdest'']
      exact hother

theorem findDestinations_valid {e : GenEv} (hn : 2 ≤ n) (hint : n < 2 ^ 31)
    (h0 : 0 ≤ e.s.localRank) (hlt : e.s.localRank < n)
    (hfits : e.s.syntheticPattern.Fits e.s.localRank n)
    (hready : e.s.syntheticPattern = .permutation → e.s.PermReady n) :
    ∃ destSvr e', findDestinations c n e = .ok (destSvr, e') ∧
      ∀ dest ∈ destSvr, 0 ≤ dest ∧ dest < n := by
  have hnear : ShiftFits e.s.localRank 1 n → ∀ dest ∈ [shiftRank e.s.localRank 1 n],
      0 ≤ dest ∧ dest < n := fun h => by
    rw [List.forall_mem_singleton]
    exact (shiftRank_valid_iff h0 hlt (by decide) (by omega) hint).2 h
  unfold findDestinations
  cases hpattern : e.s.syntheticPattern with
  | uniform =>
    refine ⟨_, _, rfl, ?_⟩
    have hdraw := GenEv.draw_mem c hn (e.setBf fun b => { b with c1 := true })
    unfold otherRank
    rw [List.forall_mem_singleton]
    split_ifs with hself
    · exact hnear (.inl (by omega)) _ List.mem_cons_self
    · exact ⟨hdraw.1, by omega⟩
  | nearestNeighbor => exact ⟨_, _, rfl, hnear (.inl (by omega))⟩
  | alltoall =>
    refine ⟨_, _, rfl, fun dest hdest => ?_⟩
    obtain ⟨i, hi, rfl⟩ := List.mem_map.1 (List.mem_of_mem_filter hdest)
    have hlt := List.mem_range.1 hi
    omega
  | stencil =>
    rw [hpattern] at hfits
    exact ⟨_, _, rfl, (stencilDests_valid_iff hn h0 hlt).2 hfits⟩
  | bisection =>
    rw [hpattern] at hfits
    refine ⟨_, _, rfl, ?_⟩
    have hhalf : Int.tdiv n 2 = n / 2 := Int.tdiv_eq_ediv_of_nonneg (by omega)
    rw [List.forall_mem_singleton]
    exact (shiftRank_valid_iff h0 hlt (by omega) (by omega) hint).2 hfits
  | permutation =>
    rw [hpattern] at hfits
    obtain ⟨dest, e', hdest, -, hother⟩ :=
      permutationDest_ok (c := c) hn hint h0 hlt hfits (hready hpattern)
    refine ⟨_, _, hdest, ?_⟩
    rw [List.forall_mem_singleton]
    exact hother.1

/-- The surroundings with other random numbers. -/
def SynCtx.withRng (c : SynCtx) (rng : RandIntegers) : SynCtx := { c with rng := rng }

/-- Random numbers that are always the same, where the bounds allow it. -/
def RandIntegers.always (r : ℤ) : RandIntegers where
  draw _ low high := if low ≤ r ∧ r ≤ high then r else low
  lower _ low high h := by
    split_ifs with hr
    · exact hr.1
    · exact le_rfl
  upper _ low high h := by
    split_ifs with hr
    · exact hr.2
    · exact h

theorem permutation_self {e : GenEv} (hrng : c.rng = .always e.s.localRank) (h0 : 0 ≤ e.s.localRank)
    (hlt : e.s.localRank < n) (hzero : e.s.genData = 0) :
    (permSwitch c n (permInit c n e)).s.savedPermDest =
      shiftRank e.s.localRank (Int.tdiv n 2) n := by
  have hdraw : ∀ e' : GenEv, (GenEv.draw c (n - 1) e').1 = e.s.localRank := fun e' => by
    rw [GenEv.draw, hrng]
    exact if_pos ⟨h0, by omega⟩
  have hinit : (permInit c n e).s.savedPermDest = shiftRank e.s.localRank (Int.tdiv n 2) n := by
    rw [permInit, if_pos hzero]
    exact if_pos (hdraw _)
  have hlocal := permInit_localRank c n e
  generalize permInit c n e = e₁ at *
  rw [permSwitch]
  split_ifs with hthresh
  · exact (if_pos ((hdraw _).trans hlocal.symm)).trans (by rw [← hlocal]; rfl)
  · exact hinit

/-- All destinations a rank can find in the states of its runs are ranks of the job, and looking
them up stays in the lists of the job map. -/
def DestinationsValid (c : SynCtx) (nwId : ℤ) (pattern : Traffic) (qosLevel n : ℤ) : Prop :=
  ∀ pre s, (synMachine c).run (.init c nwId pattern qosLevel) pre = some s → s.isFinished = false →
    ∀ now m, ∃ destSvr e, findDestinations (c.at now) n (.start s m) = .ok (destSvr, e) ∧
      ∀ dest ∈ destSvr, 0 ≤ dest ∧ dest < n ∧
        (c.jobmap.toGlobalId ⟨(c.jobmap.toLocalId nwId).job, dest⟩).isSome = true

variable {nwId qosLevel : ℤ} {pattern : Traffic}

theorem destinationsValid_of_fits (hjob : c.jobmap.toLocalId nwId ≠ .invalid)
    (hnum : c.jobmap.getNumRanks (c.jobmap.toLocalId nwId).job = n) (hn : 2 ≤ n) (hint : n < 2 ^ 31)
    (hfits : pattern.Fits (c.jobmap.toLocalId nwId).rank n) :
    DestinationsValid c nwId pattern qosLevel n := by
  intro pre s hs _ now m
  have hrank := c.jobmap.toLocalId_rank nwId hjob
  rw [hnum] at hrank
  have hinit := SynState.reached_init c nwId pattern qosLevel
  have hready : s.syntheticPattern = .permutation → s.PermReady n := fun hperm => by
    have hkeep : ∀ s l s', (SynState.Reached c s (.init c nwId pattern qosLevel) ∧
        (s.syntheticPattern = .permutation → s.PermReady n)) → (synMachine c).step s l = some s' →
        SynState.Reached c s' (.init c nwId pattern qosLevel) ∧
          (s'.syntheticPattern = .permutation → s'.PermReady n) := by
      rintro s l s' ⟨hreached, hready⟩ hstep
      have hreached' := hreached.step hstep
      refine ⟨hreached', fun hperm' => ?_⟩
      have hperm : s.syntheticPattern = .permutation := by
        rw [hreached.syntheticPattern, ← hreached'.syntheticPattern, hperm']
      have hpattern : pattern = .permutation := hreached.syntheticPattern.symm.trans hperm
      have hlocal : s.localRank = (c.jobmap.toLocalId nwId).rank := hreached.localRank
      have hid : s.nwId = nwId := hreached.nwId
      rw [hpattern] at hfits
      exact (hready hperm).step hn hint (hlocal ▸ hrank.2.1) (hlocal ▸ hrank.2.2)
        (hlocal ▸ hfits) hperm (by rw [hid, hnum]) hstep
    exact (Machine.run_invariant (P := fun _ => True) (fun s l s' h _ => hkeep s l s' h)
      ⟨hinit, fun _ => .inl rfl⟩ (fun _ _ => trivial) hs).2 hperm
  have hreached := hinit.run hs
  have hlocal : s.localRank = (c.jobmap.toLocalId nwId).rank := hreached.localRank
  have hpattern : s.syntheticPattern = pattern := hreached.syntheticPattern
  obtain ⟨destSvr, e, hfind, hvalid⟩ :=
    findDestinations_valid (c := c.at now) (e := .start s m) hn hint
    (hlocal ▸ hrank.2.1) (hlocal ▸ hrank.2.2) (by
      show s.syntheticPattern.Fits s.localRank n
      rw [hlocal, hpattern]
      exact hfits) hready
  refine ⟨destSvr, e, hfind, fun dest hdest => ⟨(hvalid dest hdest).1, (hvalid dest hdest).2, ?_⟩⟩
  exact (JobmapCtx.toGlobalId_isSome_iff (by omega) dest).2
    (.inr (by rw [hnum]; exact hvalid dest hdest))

/-- **Destinations are ranks.**  Over all random numbers and all states of a run, a rank is led to
ranks of its job exactly if its pattern fits: always, apart from stencils with a row cut off and
from jobs where half of the ranks are too many for an `int`. -/
theorem destinations_valid_iff (c : SynCtx) (nwId : ℤ) (pattern : Traffic) (qosLevel : ℤ)
    (hjob : c.jobmap.toLocalId nwId ≠ .invalid) {n : ℤ}
    (hnum : c.jobmap.getNumRanks (c.jobmap.toLocalId nwId).job = n) (hn : 2 ≤ n)
    (hint : n < 2 ^ 31) :
    (∀ rng, DestinationsValid (c.withRng rng) nwId pattern qosLevel n) ↔
      pattern.Fits (c.jobmap.toLocalId nwId).rank n := by
  constructor
  · intro h
    obtain ⟨-, h0, hlt⟩ := c.jobmap.toLocalId_rank nwId hjob
    rw [hnum] at hlt
    -- the rank draws itself
    obtain ⟨destSvr, e, hfind, hvalid⟩ := h (.always (c.jobmap.toLocalId nwId).rank) [] _ rfl rfl 0
      ⟨0, (0, 0), 0, 0⟩
    have hranks : ∀ dest ∈ destSvr, 0 ≤ dest ∧ dest < n := fun dest hdest =>
      ⟨(hvalid dest hdest).1, (hvalid dest hdest).2.1⟩
    have hhalf : Int.tdiv n 2 = n / 2 := Int.tdiv_eq_ediv_of_nonneg (by omega)
    have hshift : ∀ {dest}, dest ∈ destSvr →
        dest = shiftRank (c.jobmap.toLocalId nwId).rank (Int.tdiv n 2) n →
        ShiftFits (c.jobmap.toLocalId nwId).rank (Int.tdiv n 2) n := fun {dest} hmem heq => by
      subst heq
      exact (shiftRank_valid_iff h0 hlt (by omega) (by omega) hint).1 (hranks _ hmem)
    cases pattern with
    | uniform | nearestNeighbor | alltoall => trivial
    | stencil =>
      obtain ⟨rfl, -⟩ := Prod.mk.inj (Except.ok.inj hfind)
      exact (stencilDests_valid_iff hn h0 hlt).1 hranks
    | bisection =>
      obtain ⟨rfl, -⟩ := Prod.mk.inj (Except.ok.inj hfind)
      exact hshift List.mem_cons_self rfl
    | permutation =>
      exact hshift (permutationDest_mem hfind) (permutation_self rfl h0 hlt rfl)
  · intro hfits rng
    exact destinationsValid_of_fits (c := c.withRng rng) hjob hnum hn hint hfits

/-- Five ranks. -/
def fiveRanks : SynCtx where
  conf := [⟨"G", 1, [⟨"nw-lp", none, 5⟩]⟩]
  eagerThreshold := 8192
  enableMsgTracking := false
  prioritizeCollectives := false
  globalIdOfJobRank := none
  now := 0
  jobmap := .list [[0, 1, 2, 3, 4]]
  payloadSz := 1024
  payloadSz_lower := minInt_le_1024
  payloadSz_upper := le_maxInt_1024
  maxGenData := 0
  permSwitchThresh := 8388608
  jobTimer1 _ := 0
  jobTimer2 _ := 0
  meanIntervalOfJob _ := 100000
  rng := .always 0
  layout := fractionLayout

theorem destinations_valid_iff_permutation : DestinationsValid fiveRanks 4 .permutation 0 5 :=
  (destinations_valid_iff fiveRanks 4 .permutation 0 (by decide) (by decide) (by decide)
    (by decide)).2 (.inl (by decide)) (.always 0)

/-- **The last of five ranks** is alone in its row, and its neighbours have the number 5: the list
of the job is read past its end. -/
theorem stencil_leaves_job : stencilDests 4 5 = [5, 5, 2, 2] ∧
    fiveRanks.jobmap.toLocalId 4 = ⟨0, 4⟩ ∧ fiveRanks.jobmap.getNumRanks 0 = 5 ∧
      fiveRanks.jobmap.toGlobalId ⟨0, 5⟩ = none ∧
        ¬DestinationsValid fiveRanks 4 .stencil 0 5 := by
  refine ⟨by decide, by decide, by decide, by decide, fun h => ?_⟩
  obtain ⟨destSvr, e, hfind, hvalid⟩ := h [] _ rfl rfl 0 ⟨0, (0, 0), 0, 0⟩
  obtain ⟨rfl, -⟩ := Prod.mk.inj (Except.ok.inj hfind)
  have hfirst := (hvalid _ List.mem_cons_self).2.1
  revert hfirst
  decide

end CodesSim.Synthetic
