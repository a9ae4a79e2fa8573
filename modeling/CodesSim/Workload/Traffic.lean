import CodesSim.Workload.Allreduce
import Mathlib.Data.Nat.Log
import Mathlib.Tactic.Positivity
import Mathlib.Tactic.NormNum

/-!
# The ranks of an allreduce fit together

What every rank does in a phase is planned from the number of ranks and of bytes alone (`plan`), and
`SWM_Allreduce` carries out the plan (`swmAllreduce_eq`): before round `k` of the reduce-scatter
`recv_idx` is where the blocks of the rank start, and `last_idx` is behind them.  In every phase a
rank plans to send to the ranks that plan to receive from it (`plan_fits`).

`traffic_consistent_iff`: the ranks fit together if there are less than 2^30 of them.  For more
ranks the search for the power of two overflows and does not end.
-/

namespace CodesSim.Online

open Halving
open CodesMapping (wrapInt wrapInt_of_range)

/-! ### The power of two -/

theorem pof2Loop_from {n e : ℕ} (hle : 2 ^ e ≤ n) (hlt : n < 2 ^ (e + 1))
    (hint : n < 2 ^ 30) {k : ℕ}
    (hk : k ≤ e + 1) : pof2Loop n (e + 2 - k) (2 ^ k : ℕ) = some ((2 ^ (e + 1) : ℕ) : ℤ) := by
  induction hd : e + 1 - k generalizing k with
  | zero =>
    obtain rfl : k = e + 1 := by omega
    have hfuel : e + 2 - (e + 1) = 1 := by omega
    rw [hfuel, pof2Loop, if_neg]
    rw [Nat.cast_le]
    exact hlt.not_ge
  | succ d ih =>
    have hfuel : e + 2 - k = (e + 2 - (k + 1)) + 1 := by omega
    have hpow : 2 ^ k ≤ n := (Nat.pow_le_pow_right (by omega) (by omega)).trans hle
    have hwrap : wrapInt (2 * (2 ^ k : ℕ)) = (2 ^ (k + 1) : ℕ) := by
      rw [Nat.pow_succ', Nat.cast_mul, Nat.cast_ofNat]
      generalize 2 ^ k = mask at hpow
      exact wrapInt_of_range (by omega) (by omega)
    rw [hfuel, pof2Loop, if_pos (Nat.cast_le.2 hpow), hwrap]
    exact ih (by omega) (by omega)

theorem pof2Loop_eq {n e : ℕ} (hle : 2 ^ e ≤ n) (hlt : n < 2 ^ (e + 1)) (hint : n < 2 ^ 30) :
    pof2Loop n (e + 2) 1 = some ((2 ^ (e + 1) : ℕ) : ℤ) :=
  pof2Loop_from hle hlt hint (Nat.zero_le _)

/-- From 2^30 on the bit is shifted into the sign and out, and zero stays zero. -/
theorem pof2Loop_eq_none {n : ℕ} (h : 2 ^ 30 ≤ n) (fuel : ℕ) : pof2Loop n fuel 1 = none := by
  have hinv : ∀ (fuel : ℕ) (pof2 : ℤ), (∃ k ≤ 30, pof2 = 2 ^ k) ∨ pof2 = -2 ^ 31 ∨ pof2 = 0 →
      pof2Loop n fuel pof2 = none := by
    intro fuel
    induction fuel with
    | zero => exact fun _ _ => rfl
    | succ fuel ih =>
      intro pof2 hpof2
      have hle : pof2 ≤ n := by
        rcases hpof2 with ⟨k, hk, rfl⟩ | rfl | rfl
        · have hpow : (2 : ℤ) ^ k ≤ 2 ^ 30 := pow_le_pow_right₀ (by omega) hk
          omega
        · omega
        · omega
      rw [pof2Loop, if_pos hle]
      apply ih
      rcases hpof2 with ⟨k, hk, rfl⟩ | rfl | rfl
      · by_cases hlast : k = 30
        · subst hlast
          exact .inr (.inl rfl)
        · have hpow : (2 : ℤ) ^ k ≤ 2 ^ 29 := pow_le_pow_right₀ (by omega) (by omega)
          have hpos : (0 : ℤ) < 2 ^ k := by positivity
          refine .inl ⟨k + 1, by omega, ?_⟩
          rw [wrapInt_of_range (by omega) (by omega), pow_succ']
      · exact .inr (.inr rfl)
      · exact .inr (.inr rfl)
  exact hinv fuel 1 (.inl ⟨0, by omega, rfl⟩)

/-! ### The ranks that remain -/

section Ranks

variable {pof2 rem : ℕ} (hrem : rem ≤ pof2)

include hrem

/-- The ranks that remain are those behind the new numbers. -/
theorem newrankOf_eq_some {a r : ℕ} (ha : a < pof2 + rem) :
    newrankOf rem a = some r ↔ r < pof2 ∧ dstOf rem r = a := by
  rw [newrankOf, dstOf]
  split_ifs with hfold heven hsmall hsmall hsmall
  all_goals simp only [Option.some.injEq, false_iff]
  all_goals omega

theorem dstOf_lt {r : ℕ} (hr : r < pof2) : dstOf rem r < pof2 + rem := by
  rw [dstOf]
  split_ifs <;> omega

theorem newrankOf_dstOf {r : ℕ} (hr : r < pof2) : newrankOf rem (dstOf rem r) = some r :=
  (newrankOf_eq_some hrem (dstOf_lt hrem hr)).2 ⟨hr, rfl⟩

end Ranks

/-! ### Sums of blocks -/

/-- The sum of `len` elements from `lo` on. -/
def blockSum (cnts : List ℤ) (lo len : ℕ) : ℤ :=
  (List.range len).foldl (fun cnt j => wrapInt (cnt + cnts.getD (lo + j) 0)) 0

theorem cntAt_eq {cnts : List ℤ} {i : ℕ} (h : i < cnts.length) :
    cntAt cnts i = some (cnts.getD i 0) := by
  rw [cntAt, if_neg (by omega), Int.toNat_natCast, List.getElem?_eq_getElem h,
    List.getD_eq_getElem _ _ h]

theorem sumCnts_eq {cnts : List ℤ} {lo len : ℕ} {lo' hi' : ℤ} (hlo : lo' = lo)
    (hhi : hi' = lo' + len)
    (h : lo + len ≤ cnts.length) : sumCnts cnts lo' hi' = some (blockSum cnts lo len) := by
  have hlen : (hi' - lo').toNat = len := by omega
  have hfold : ∀ (js : List ℕ) (cnt : ℤ), (∀ j ∈ js, j < len) →
      js.foldlM (fun cnt (j : ℕ) => (cntAt cnts (lo' + j)).map fun c => wrapInt (cnt + c)) cnt =
        some (js.foldl (fun cnt j => wrapInt (cnt + cnts.getD (lo + j) 0)) cnt) := by
    intro js
    induction js with
    | nil => exact fun _ _ => rfl
    | cons j js ih =>
      intro cnt hjs
      have hj := hjs j List.mem_cons_self
      have hcast : lo' + (j : ℤ) = (lo + j : ℕ) := by omega
      rw [List.foldlM_cons, List.foldl_cons, hcast, cntAt_eq (by omega)]
      exact ih _ fun j' hj' => hjs j' (List.mem_cons_of_mem _ hj')
  rw [sumCnts, hlen]
  exact hfold _ _ fun j hj => List.mem_range.1 hj

theorem cntsOf_length {count pof2 : ℕ} (h : 0 < pof2) : (cntsOf count pof2).length = pof2 := by
  rw [cntsOf, List.length_append, List.length_replicate, List.length_singleton]
  omega

theorem dispsFrom_isSome {cnts : List ℤ} {n i : ℕ} (disp : ℤ) (hi : 0 < i)
    (h : i + n ≤ cnts.length + 1) : ∃ disps, dispsFrom cnts n i disp = some disps := by
  induction n generalizing i disp with
  | zero => exact ⟨[], rfl⟩
  | succ n ih =>
    have hcast : (i : ℤ) - 1 = (i - 1 : ℕ) := by omega
    obtain ⟨disps, hdisps⟩ := ih (i := i + 1)
      (wrapInt (disp + cnts.getD (i - 1) 0)) (by omega) (by omega)
    rw [dispsFrom, hcast, cntAt_eq (by omega), Option.bind_some, hdisps]
    exact ⟨_, rfl⟩

theorem dispsOf_isSome {count pof2 : ℕ} (h : 0 < pof2) :
    ∃ disps, dispsOf (cntsOf count pof2) pof2 = some disps := by
  have hlen : 1 + (pof2 - 1) ≤ (cntsOf count pof2).length + 1 := by rw [cntsOf_length h]; omega
  obtain ⟨disps, hdisps⟩ := dispsFrom_isSome 0 Nat.one_pos hlen
  rw [dispsOf, hdisps]
  exact ⟨_, rfl⟩

/-! ### The rounds of the reduce-scatter and the allgather -/
variable {dst sendCnt recvCnt : ℤ}


section Rounds

variable {cnts : List ℤ} {e rem r k : ℕ}

/-- The lower half of the blocks of a rank before a round. -/
def lower (cnts : List ℤ) (e r k : ℕ) : ℤ := blockSum cnts (blockStart e r k) (2 ^ (e - 1 - k))

/-- The upper half. -/
def upper (cnts : List ℤ) (e r k : ℕ) : ℤ :=
  blockSum cnts (blockStart e r k + 2 ^ (e - 1 - k)) (2 ^ (e - 1 - k))

/-- The exchange of a rank in a round of the reduce-scatter: it keeps one half. -/
def scatterCall (cnts : List ℤ) (e rem r k : ℕ) : Call :=
  if r.testBit k then
    .sendrecv (dstOf rem (r ^^^ 2 ^ k)) (lower cnts e r k) (some (upper cnts e r k))
  else .sendrecv (dstOf rem (r ^^^ 2 ^ k)) (upper cnts e r k) (some (lower cnts e r k))

/-- The exchange of a rank in a round of the allgather: it gets the other half. -/
def gatherCall (cnts : List ℤ) (e rem r k : ℕ) : Call :=
  if r.testBit k then
    .sendrecv (dstOf rem (r ^^^ 2 ^ k)) (upper cnts e r k) (some (lower cnts e r k))
  else .sendrecv (dstOf rem (r ^^^ 2 ^ k)) (lower cnts e r k) (some (upper cnts e r k))

theorem scatterCall_partner
    (h : scatterCall cnts e rem r k = .sendrecv dst sendCnt (some recvCnt)) :
    dst = dstOf rem (r ^^^ 2 ^ k) ∧ scatterCall cnts e rem (r ^^^ 2 ^ k) k =
      .sendrecv (dstOf rem (r ^^^ 2 ^ k ^^^ 2 ^ k)) recvCnt (some sendCnt) := by
  rw [scatterCall] at h
  rw [scatterCall, lower, upper, testBit_partner, blockStart_partner le_rfl]
  cases hbit : r.testBit k with
  | false =>
    rw [if_neg (by rw [hbit]; exact Bool.false_ne_true)] at h
    obtain ⟨rfl, rfl, hrecv⟩ := Call.sendrecv.inj h
    obtain rfl := Option.some.inj hrecv
    exact ⟨rfl, rfl⟩
  | true =>
    rw [if_pos hbit] at h
    obtain ⟨rfl, rfl, hrecv⟩ := Call.sendrecv.inj h
    obtain rfl := Option.some.inj hrecv
    exact ⟨rfl, rfl⟩

theorem gatherCall_eq_scatterCall :
    gatherCall cnts e rem r k = .sendrecv dst sendCnt (some recvCnt) ↔
      scatterCall cnts e rem r k = .sendrecv dst recvCnt (some sendCnt) := by
  rw [gatherCall, scatterCall]
  split_ifs
  all_goals
    simp only [Call.sendrecv.injEq, Option.some.injEq]
    exact and_congr_right fun _ => and_comm

/-- Where the blocks of a rank end before a round; after the last round it is where they ended
before it. -/
def blockEnd (e r k : ℕ) : ℕ := blockStart e r (min k (e - 1)) + 2 ^ (e - min k (e - 1))

theorem blockEnd_of_lt (hk : k < e) : blockEnd e r k = blockStart e r k + 2 ^ (e - k) := by
  rw [blockEnd, min_eq_left (by omega)]

theorem blockEnd_eq (hk : k < e) :
    blockEnd e r k = blockStart e r k + 2 ^ (e - 1 - k) + 2 ^ (e - 1 - k) := by
  rw [blockEnd_of_lt hk, two_halves hk, Nat.add_assoc]

theorem blockEnd_le (hk : k < e) : blockEnd e r k ≤ 2 ^ e := by
  rw [blockEnd_of_lt hk]
  exact blockStart_add_le hk.le

/-- `last_idx` is not moved in the last iteration. -/
theorem blockEnd_succ (hk : k < e) : blockEnd e r (k + 1) =
    if 2 * 2 ^ k < 2 ^ e then blockStart e r (k + 1) + 2 ^ e / (2 * 2 ^ k) else blockEnd e r k := by
  have hiff : 2 * 2 ^ k < 2 ^ e ↔ k + 1 < e := by
    rw [← Nat.pow_succ']
    exact Nat.pow_lt_pow_iff_right Nat.one_lt_two
  by_cases hlast : k + 1 < e
  · rw [if_pos (hiff.2 hlast), blockEnd_of_lt hlast, Nat.mul_comm 2, half_eq hk]
    congr 2
    omega
  · obtain rfl : e = k + 1 := by omega
    rw [if_neg (mt hiff.1 hlast), blockEnd, blockEnd, Nat.add_sub_cancel, min_eq_right (by omega),
      min_self]

/-- `last_idx` on the way back: a rank that has kept the lower half gets its end moved, but for the
last round, in which it was not moved. -/
theorem blockEnd_back (hk : k < e) : blockEnd e r k =
    if r.testBit k = false ∧ 2 ^ k ≠ 2 ^ e / 2 then blockEnd e r (k + 1) + 2 ^ (e - 1 - k)
    else blockEnd e r (k + 1) := by
  have hiff : 2 ^ k ≠ 2 ^ e / 2 ↔ k + 1 < e := by
    have hhalf : 2 ^ e / 2 = 2 ^ (e - 1) := by
      rw [← Nat.pow_sub_mul_pow 2 (show 1 ≤ e by omega), Nat.pow_one,
        Nat.mul_div_cancel _ (by omega)]
    rw [hhalf, Ne, Nat.pow_right_inj (by omega)]
    omega
  simp only [hiff]
  by_cases hlast : k + 1 < e
  · have hexp : e - (k + 1) = e - 1 - k := by omega
    rw [blockEnd_eq hk, blockEnd_of_lt hlast, hexp, blockStart]
    cases hbit : r.testBit k with
    | false => rw [if_neg Bool.false_ne_true, if_pos ⟨rfl, hlast⟩, Nat.add_zero]
    | true => rw [if_pos rfl, if_neg fun h => Bool.false_ne_true h.1.symm]
  · rw [if_neg fun h => hlast h.2, blockEnd_succ hk, if_neg]
    rw [← Nat.pow_succ', Nat.pow_lt_pow_iff_right Nat.one_lt_two]
    exact hlast

theorem sumCnts_halves (hlen : cnts.length = 2 ^ e) (hk : k < e) :
    sumCnts cnts (blockStart e r k) (blockStart e r k + (2 ^ (e - 1 - k) : ℕ)) =
        some (lower cnts e r k) ∧
      sumCnts cnts (blockStart e r k + (2 ^ (e - 1 - k) : ℕ)) (blockEnd e r k) =
        some (upper cnts e r k) := by
  have hend := blockEnd_eq (r := r) hk
  have hle := blockEnd_le (r := r) hk
  rw [← hlen, hend] at hle
  rw [hend, lower, upper]
  generalize 2 ^ (e - 1 - k) = half at hle ⊢
  exact ⟨sumCnts_eq rfl rfl (by omega), sumCnts_eq (by omega) (by omega) hle⟩

/-- The indices before a round of the reduce-scatter. -/
def scatterIdx (e r k : ℕ) : ScatterIdx := ⟨blockStart e r k, blockStart e r k, blockEnd e r k⟩

/-- **A round of the reduce-scatter.** -/
theorem scatterBody_eq (hlen : cnts.length = 2 ^ e) (hk : k < e) :
    scatterBody cnts (2 ^ e) rem r (2 ^ k) (scatterIdx e r k) =
      some ((.reduceScatter (2 ^ k), scatterCall cnts e rem r k), scatterIdx e r (k + 1)) := by
  obtain ⟨hlower, hupper⟩ := sumCnts_halves (r := r) hlen hk
  have hnext : (if 2 * 2 ^ k < 2 ^ e then
      (blockStart e r (k + 1) : ℤ) + (2 ^ e / (2 * 2 ^ k) : ℕ) else blockEnd e r k) =
        blockEnd e r (k + 1) := by
    rw [blockEnd_succ hk]
    split_ifs <;> push_cast <;> rfl
  rw [scatterBody, scatterIdx]
  simp only [half_eq hk]
  by_cases hbit : r.testBit k = true
  · have hstart : (blockStart e r (k + 1) : ℤ) = blockStart e r k + (2 ^ (e - 1 - k) : ℕ) := by
      rw [blockStart, if_pos hbit, Nat.cast_add]
    rw [if_neg (by rw [lt_partner_iff, hbit]; exact Bool.noConfusion), hlower,
      Option.bind_some, hupper, ← hstart, hnext, scatterCall, if_pos hbit]
    rfl
  · have hstart : blockStart e r (k + 1) = blockStart e r k := by
      rw [blockStart, if_neg hbit, Nat.add_zero]
    rw [if_pos (lt_partner_iff.2 (Bool.not_eq_true _ ▸ hbit)), hupper, Option.bind_some, hlower,
      ← hstart, hnext, scatterCall, if_neg hbit, scatterIdx]
    rfl

/-- The indices behind a round of the allgather. -/
def gatherIdx (e r k : ℕ) : GatherIdx := ⟨blockStart e r k, blockEnd e r k⟩

/-- **A round of the allgather**, which undoes the round of the reduce-scatter. -/
theorem gatherBody_eq (hlen : cnts.length = 2 ^ e) (hk : k < e) :
    gatherBody cnts (2 ^ e) rem r (2 ^ k) (gatherIdx e r (k + 1)) =
      some ((.allgather (2 ^ k), gatherCall cnts e rem r k), gatherIdx e r k) := by
  obtain ⟨hlower, hupper⟩ := sumCnts_halves (r := r) hlen hk
  have hback := blockEnd_back (r := r) hk
  rw [gatherBody, gatherIdx]
  simp only [half_eq hk]
  by_cases hbit : r.testBit k = true
  · have hstart : (blockStart e r (k + 1) : ℤ) = blockStart e r k + (2 ^ (e - 1 - k) : ℕ) := by
      rw [blockStart, if_pos hbit, Nat.cast_add]
    rw [if_neg fun h => Bool.false_ne_true (h.1.symm.trans hbit)] at hback
    rw [if_neg (by rw [lt_partner_iff, hbit]; exact Bool.noConfusion), hstart, ← hback, hupper,
      Option.bind_some, add_sub_cancel_right, hlower, gatherCall, if_pos hbit]
    rfl
  · have hbit' : r.testBit k = false := Bool.not_eq_true _ ▸ hbit
    have hstart : blockStart e r (k + 1) = blockStart e r k := by
      rw [blockStart, if_neg hbit, Nat.add_zero]
    have hlast : (if 2 ^ k ≠ 2 ^ e / 2 then (blockEnd e r (k + 1) : ℤ) + (2 ^ (e - 1 - k) : ℕ)
        else blockEnd e r (k + 1)) = blockEnd e r k := by
      rw [hback]
      simp only [hbit', true_and]
      split_ifs <;> push_cast <;> rfl
    rw [if_pos (lt_partner_iff.2 hbit'), hstart, hlower, Option.bind_some, hlast, hupper,
      gatherCall,
      if_neg hbit]
    rfl

end Rounds

/-! ### The plan -/

section Plan

variable {n e count a b k : ℕ}

/-- The exchange of a rank in a round of the recursive doubling. -/
def doublingCall (rem count r k : ℕ) : Call := .sendrecv (dstOf rem (r ^^^ 2 ^ k)) count none

/-- What a rank does in a phase; `2 ^ e` is the largest power of two. -/
def plan (n e count a : ℕ) : Phase → Option Call
  | .fold =>
    if a < 2 * (n - 2 ^ e) then
      if a % 2 = 0 then some (.send (a + 1) count) else some (.recv (a - 1))
    else none
  | .doubling mask =>
    (newrankOf (n - 2 ^ e) a).map fun r => doublingCall (n - 2 ^ e) count r (Nat.log 2 mask)
  | .reduceScatter mask =>
    (newrankOf (n - 2 ^ e) a).map fun r =>
      scatterCall (cntsOf count (2 ^ e)) e (n - 2 ^ e) r (Nat.log 2 mask)
  | .allgather mask =>
    (newrankOf (n - 2 ^ e) a).map fun r =>
      gatherCall (cntsOf count (2 ^ e)) e (n - 2 ^ e) r (Nat.log 2 mask)
  | .unfold =>
    if a < 2 * (n - 2 ^ e) then
      if a % 2 = 0 then some (.recv (a + 1)) else some (.send (a - 1) count)
    else none

/-- The phases of the exchanges. -/
def rounds (e count : ℕ) : List Phase :=
  if count ≤ allreduceShortMsgSize ∨ count < 2 ^ e then
    (List.range e).map fun k => .doubling (2 ^ k)
  else
    (List.range e).map (fun k => .reduceScatter (2 ^ k)) ++
      (List.range e).reverse.map fun k => .allgather (2 ^ k)

/-- All phases. -/
def schedule (e count : ℕ) : List Phase := [.fold] ++ rounds e count ++ [.unfold]

theorem foldCalls_eq : foldCalls (n - 2 ^ e) a count = acts [.fold] (plan n e count a) := by
  rw [foldCalls, acts, List.filterMap_cons, plan]
  split_ifs <;> rfl

theorem unfoldCalls_eq : unfoldCalls (n - 2 ^ e) a count = acts [.unfold] (plan n e count a) := by
  rw [unfoldCalls, acts, List.filterMap_cons, plan]
  split_ifs <;> rfl

theorem exchanges_eq : exchanges (2 ^ e) (n - 2 ^ e) count (newrankOf (n - 2 ^ e) a) =
    some (acts (rounds e count) (plan n e count a)) := by
  cases hr : newrankOf (n - 2 ^ e) a with
  | none =>
    rw [exchanges, acts_eq_nil]
    intro p hp
    rw [rounds] at hp
    split_ifs at hp
    · obtain ⟨k, -, rfl⟩ := List.mem_map.1 hp
      rw [plan, hr]
      rfl
    · rcases List.mem_append.1 hp with hp | hp
      · obtain ⟨k, -, rfl⟩ := List.mem_map.1 hp
        rw [plan, hr]
        rfl
      · obtain ⟨k, -, rfl⟩ := List.mem_map.1 hp
        rw [plan, hr]
        rfl
  | some r =>
    rw [exchanges, rounds]
    split_ifs with hshort
    · rw [doubling, @whileUp_range _ _ (doublingBody (n - 2 ^ e) r count) (fun _ => ())
        (fun k => (.doubling (2 ^ k), doublingCall (n - 2 ^ e) count r k)) e fun _ _ => rfl,
        Option.map_some, acts_map]
      intro k _
      rw [plan, hr, Option.map_some, Nat.log_pow Nat.one_lt_two]
    · have hpos : 0 < 2 ^ e := Nat.two_pow_pos e
      have hlen : (cntsOf count (2 ^ e)).length = 2 ^ e := cntsOf_length hpos
      obtain ⟨disps, hdisps⟩ := @dispsOf_isSome count _ hpos
      have hup := @whileUp_range _ _ (scatterBody (cntsOf count (2 ^ e)) (2 ^ e) (n - 2 ^ e) r)
        (scatterIdx e r) (fun k => (.reduceScatter (2 ^ k),
          scatterCall (cntsOf count (2 ^ e)) e (n - 2 ^ e) r k)) e fun k hk =>
          scatterBody_eq hlen hk
      have hdown := @whileDown_range _ _ (gatherBody (cntsOf count (2 ^ e)) (2 ^ e) (n - 2 ^ e) r)
        (gatherIdx e r) (fun k => (.allgather (2 ^ k),
          gatherCall (cntsOf count (2 ^ e)) e (n - 2 ^ e) r k)) e fun k hk => gatherBody_eq hlen hk
      have hfirst : (⟨0, 0, (2 ^ e : ℕ)⟩ : ScatterIdx) = scatterIdx e r 0 := by
        rw [scatterIdx, blockEnd, Nat.zero_min, blockStart, Nat.zero_add]
        rfl
      rw [scatterGather, hdisps, Option.bind_some, hfirst, hup, Option.bind_some]
      change Option.map _ (whileDown _ _ (gatherIdx e r e)) = _
      rw [hdown, Option.map_some, acts_append, acts_map, acts_map]
      · intro k _
        rw [plan, hr, Option.map_some, Nat.log_pow Nat.one_lt_two]
      · intro k _
        rw [plan, hr, Option.map_some, Nat.log_pow Nat.one_lt_two]

/-- **The collective carries out the plan.** -/
theorem swmAllreduce_eq (sctx : SharedContext) (hle : 2 ^ e ≤ sctx.numRanks)
    (hlt : sctx.numRanks < 2 ^ (e + 1)) (hint : sctx.numRanks < 2 ^ 30) :
    swmAllreduce (e + 2) count sctx =
      some (acts (schedule e count) (plan sctx.numRanks e count sctx.myRank),
        (acts (schedule e count) (plan sctx.numRanks e count sctx.myRank)).foldl perform sctx) := by
  have hpof2 : (((2 ^ (e + 1) : ℕ) : ℤ) / 2).toNat = 2 ^ e := by
    rw [Nat.pow_succ]
    omega
  rw [swmAllreduce, pof2Loop_eq hle hlt hint, Option.bind_some]
  simp only [hpof2, exchanges_eq, Option.map_some, foldCalls_eq, unfoldCalls_eq, schedule,
    acts_append]

/-! ### The plans fit together -/

/-- A call sends a message to a rank. -/
def Call.sendsTo (b : ℕ) : Call → Bool
  | .send peer _ => peer = b
  | .recv _ => false
  | .sendrecv dst _ _ => dst = b

/-- A call receives a message from a rank. -/
def Call.recvsFrom (a : ℕ) : Call → Bool
  | .send _ _ => false
  | .recv peer => peer = a
  | .sendrecv dst _ _ => dst = a

/-- The rank that a call is about. -/
def Call.peer : Call → ℤ
  | .send peer _ => peer
  | .recv peer => peer
  | .sendrecv dst _ _ => dst

theorem scatterCall_eq (cnts : List ℤ) (e rem r k : ℕ) : ∃ sendCnt recvCnt,
    scatterCall cnts e rem r k = .sendrecv (dstOf rem (r ^^^ 2 ^ k)) sendCnt recvCnt := by
  rw [scatterCall]
  split_ifs <;> exact ⟨_, _, rfl⟩

theorem gatherCall_eq (cnts : List ℤ) (e rem r k : ℕ) : ∃ sendCnt recvCnt,
    gatherCall cnts e rem r k = .sendrecv (dstOf rem (r ^^^ 2 ^ k)) sendCnt recvCnt := by
  rw [gatherCall]
  split_ifs <;> exact ⟨_, _, rfl⟩

variable {p : Phase}

theorem schedule_cases (h : p ∈ schedule e count) : p = .fold ∨ p = .unfold ∨
    ∃ k < e, p = .doubling (2 ^ k) ∨ p = .reduceScatter (2 ^ k) ∨ p = .allgather (2 ^ k) := by
  rw [schedule, List.mem_append, List.mem_append, List.mem_singleton, List.mem_singleton] at h
  rcases h with (h | h) | h
  · exact .inl h
  · rw [rounds] at h
    split_ifs at h
    · obtain ⟨k, hk, rfl⟩ := List.mem_map.1 h
      exact .inr (.inr ⟨k, List.mem_range.1 hk, .inl rfl⟩)
    · rcases List.mem_append.1 h with h | h
      · obtain ⟨k, hk, rfl⟩ := List.mem_map.1 h
        exact .inr (.inr ⟨k, List.mem_range.1 hk, .inr (.inl rfl)⟩)
      · obtain ⟨k, hk, rfl⟩ := List.mem_map.1 h
        exact .inr (.inr ⟨k, List.mem_range.1 (List.mem_reverse.1 hk), .inr (.inr rfl)⟩)
  · exact .inr (.inl h)

/-- **What a rank plans in an exchange**: it is about the partner's rank. -/
theorem plan_exchange (n count a : ℕ) (hk : p = .doubling (2 ^ k) ∨
    p = .reduceScatter (2 ^ k) ∨ p = .allgather (2 ^ k)) : ∃ call : ℕ → ℤ × Option ℤ,
      plan n e count a p = (newrankOf (n - 2 ^ e) a).map fun r =>
        .sendrecv (dstOf (n - 2 ^ e) (r ^^^ 2 ^ k)) (call r).1 (call r).2 := by
  have hlog : Nat.log 2 (2 ^ k) = k := Nat.log_pow Nat.one_lt_two k
  rcases hk with rfl | rfl | rfl
  · refine ⟨fun _ => (count, none), ?_⟩
    rw [plan, hlog]
    rfl
  · choose sendCnt recvCnt hcall using
      scatterCall_eq (cntsOf count (2 ^ e)) e (n - 2 ^ e) (k := k)
    refine ⟨fun r => (sendCnt r, recvCnt r), ?_⟩
    rw [plan, hlog]
    congr 1
    funext r
    exact hcall r
  · choose sendCnt recvCnt hcall using
      gatherCall_eq (cntsOf count (2 ^ e)) e (n - 2 ^ e) (k := k)
    refine ⟨fun r => (sendCnt r, recvCnt r), ?_⟩
    rw [plan, hlog]
    congr 1
    funext r
    exact hcall r

theorem partner_symm {pof2 rem r : ℕ} (hrem : rem ≤ pof2) (ha : a < pof2 + rem)
    (hpof2 : pof2 = 2 ^ e)
    (hk : k < e) (hr : newrankOf rem a = some r) :
    dstOf rem (r ^^^ 2 ^ k) < pof2 + rem ∧ dstOf rem (r ^^^ 2 ^ k) ≠ a ∧
      newrankOf rem (dstOf rem (r ^^^ 2 ^ k)) = some (r ^^^ 2 ^ k) ∧
        dstOf rem (r ^^^ 2 ^ k ^^^ 2 ^ k) = a := by
  obtain ⟨hlt, hdst⟩ := (newrankOf_eq_some hrem ha).1 hr
  have hpartner : r ^^^ 2 ^ k < pof2 := by
    rw [hpof2] at hlt ⊢
    exact partner_lt hlt hk
  have hback := newrankOf_dstOf hrem hpartner
  refine ⟨dstOf_lt hrem hpartner, fun heq => ?_, hback, by rw [partner_partner, hdst]⟩
  rw [heq, hr] at hback
  exact partner_ne r k (Option.some.inj hback).symm

variable (hle : 2 ^ e ≤ n) (hlt : n < 2 ^ (e + 1))

include hle hlt

/-- **Every peer is another rank.** -/
theorem plan_peer (ha : a < n) (hp : p ∈ schedule e count) {c : Call}
    (hc : plan n e count a p = some c) : ∃ b < n, c.peer = b ∧ b ≠ a := by
  rw [Nat.pow_succ] at hlt
  rcases schedule_cases hp with rfl | rfl | ⟨k, hk, hphase⟩
  · rw [plan] at hc
    split_ifs at hc with hfold heven
    · obtain rfl := Option.some.inj hc
      exact ⟨a + 1, by omega, by rw [Call.peer, Nat.cast_succ], by omega⟩
    · obtain rfl := Option.some.inj hc
      exact ⟨a - 1, by omega, by rw [Call.peer]; omega, by omega⟩
  · rw [plan] at hc
    split_ifs at hc with hfold heven
    · obtain rfl := Option.some.inj hc
      exact ⟨a + 1, by omega, by rw [Call.peer, Nat.cast_succ], by omega⟩
    · obtain rfl := Option.some.inj hc
      exact ⟨a - 1, by omega, by rw [Call.peer]; omega, by omega⟩
  · obtain ⟨call, hplan⟩ := plan_exchange (e := e) n count a hphase
    rw [hplan] at hc
    obtain ⟨r, hr, rfl⟩ := Option.map_eq_some_iff.1 hc
    obtain ⟨hdst, hne, -⟩ := partner_symm (by omega) (by omega) rfl hk hr
    exact ⟨_, by omega, rfl, hne⟩

theorem exchange_fits (ha : a < n) (hk : k < e)
    (h : (newrankOf (n - 2 ^ e) a).any fun r => dstOf (n - 2 ^ e) (r ^^^ 2 ^ k) = b) :
    (newrankOf (n - 2 ^ e) b).any fun r => dstOf (n - 2 ^ e) (r ^^^ 2 ^ k) = a := by
  rw [Nat.pow_succ] at hlt
  rw [Option.any_eq_true] at h ⊢
  obtain ⟨r, hr, hdst⟩ := h
  obtain ⟨-, -, hpartner, hback⟩ :=
    partner_symm (n.sub_le_iff_le_add.2 (by omega)) (by omega) rfl hk hr
  rw [of_decide_eq_true hdst] at hpartner
  exact ⟨_, hpartner, decide_eq_true hback⟩

/-- **The plans fit**: a rank sends to another in the phases in which that one receives from it. -/
theorem plan_fits (ha : a < n) (hb : b < n) (hp : p ∈ schedule e count) :
    (plan n e count a p).any (Call.sendsTo b) = (plan n e count b p).any (Call.recvsFrom a) := by
  rcases schedule_cases hp with rfl | rfl | ⟨k, hk, hphase⟩
  · rw [Nat.pow_succ] at hlt
    rw [plan, plan, Bool.eq_iff_iff]
    split_ifs <;> simp [Call.sendsTo, Call.recvsFrom] <;> omega
  · rw [Nat.pow_succ] at hlt
    rw [plan, plan, Bool.eq_iff_iff]
    split_ifs <;> simp [Call.sendsTo, Call.recvsFrom] <;> omega
  · obtain ⟨call, hplan⟩ := plan_exchange (e := e) n count a hphase
    obtain ⟨call', hplan'⟩ := plan_exchange (e := e) n count b hphase
    rw [hplan, hplan', Option.any_map, Option.any_map]
    simp only [Call.sendsTo, Call.recvsFrom, Nat.cast_inj]
    rw [Bool.eq_iff_iff]
    exact ⟨exchange_fits hle hlt ha hk, exchange_fits hle hlt hb hk⟩

/-- **The counts agree**: what a rank sends in a round is what the partner counts as received. -/
theorem plan_counts (ha : a < n) (hp : p ∈ schedule e count)
    (hc : plan n e count a p = some (.sendrecv dst sendCnt (some recvCnt))) :
    ∃ b < n, dst = b ∧ plan n e count b p = some (.sendrecv a recvCnt (some sendCnt)) := by
  have hrem : n - 2 ^ e ≤ 2 ^ e := by rw [Nat.pow_succ] at hlt; omega
  have hlog : ∀ k, Nat.log 2 (2 ^ k) = k := fun k => Nat.log_pow Nat.one_lt_two k
  rcases schedule_cases hp with rfl | rfl | ⟨k, hk, rfl | rfl | rfl⟩
  · rw [plan] at hc
    split_ifs at hc <;> cases hc
  · rw [plan] at hc
    split_ifs at hc <;> cases hc
  · rw [plan] at hc
    obtain ⟨r, -, hcall⟩ := Option.map_eq_some_iff.1 hc
    cases hcall
  · rw [plan, hlog] at hc
    obtain ⟨r, hr, hcall⟩ := Option.map_eq_some_iff.1 hc
    obtain ⟨hdst, hpartner⟩ := scatterCall_partner hcall
    obtain ⟨hb, -, hr', hback⟩ := partner_symm hrem (by omega) rfl hk hr
    rw [hback] at hpartner
    refine ⟨_, by omega, hdst, ?_⟩
    rw [plan, hlog, hr', Option.map_some, hpartner]
  · rw [plan, hlog] at hc
    obtain ⟨r, hr, hcall⟩ := Option.map_eq_some_iff.1 hc
    obtain ⟨hdst, hpartner⟩ := scatterCall_partner (gatherCall_eq_scatterCall.1 hcall)
    obtain ⟨hb, -, hr', hback⟩ := partner_symm hrem (by omega) rfl hk hr
    rw [hback] at hpartner
    refine ⟨_, by omega, hdst, ?_⟩
    rw [plan, hlog, hr', Option.map_some, gatherCall_eq_scatterCall.2 hpartner]

end Plan

/-! ### The operations -/

/-- An operation sends a message to a rank. -/
def WorkloadOp.sendTo (b : ℕ) : WorkloadOp → Bool
  | .send _ _ _ destRank => destRank = b
  | _ => false

/-- An operation receives a message from a rank. -/
def WorkloadOp.recvFrom (a : ℕ) : WorkloadOp → Bool
  | .recv _ _ sourceRank _ => sourceRank = a
  | .irecv _ _ sourceRank _ _ => sourceRank = a
  | _ => false

/-- The other rank of an operation. -/
def WorkloadOp.peer : WorkloadOp → Option ℤ
  | .send _ _ _ destRank => some destRank
  | .recv _ _ sourceRank _ => some sourceRank
  | .irecv _ _ sourceRank _ _ => some sourceRank
  | .wait _ => none

/-- The phases of some of the operations. -/
def SharedContext.phases (Q : WorkloadOp → Bool) (sctx : SharedContext) : List Phase :=
  (sctx.fifo.filter fun x => Q x.2).map Prod.fst

theorem SharedContext.phases_push (Q : WorkloadOp → Bool) (sctx : SharedContext) (phase : Phase)
    (op : WorkloadOp) :
    (sctx.push phase op).phases Q = sctx.phases Q ++ if Q op then [phase] else [] := by
  rw [phases, push, List.filter_append, List.map_append, phases, List.filter_cons, List.filter_nil]
  change _ ++ List.map _ (if Q op = true then _ else _) = _
  split_ifs <;> rfl

theorem perform_sendTo (b : ℕ) (sctx : SharedContext) (x : Step) :
    (perform sctx x).phases (WorkloadOp.sendTo b) =
      sctx.phases (WorkloadOp.sendTo b) ++ if x.2.sendsTo b then [x.1] else [] := by
  obtain ⟨phase, c⟩ := x
  cases c with
  | send peer bytes => exact sctx.phases_push _ phase _
  | recv peer => exact sctx.phases_push _ phase _
  | sendrecv dst sendCnt recvCnt =>
    change SharedContext.phases _ (((sctx.push phase _).push phase _).push phase _) = _
    rw [SharedContext.phases_push, SharedContext.phases_push, SharedContext.phases_push]
    simp [WorkloadOp.sendTo, Call.sendsTo]

theorem perform_recvFrom (a : ℕ) (sctx : SharedContext) (x : Step) :
    (perform sctx x).phases (WorkloadOp.recvFrom a) =
      sctx.phases (WorkloadOp.recvFrom a) ++ if x.2.recvsFrom a then [x.1] else [] := by
  obtain ⟨phase, c⟩ := x
  cases c with
  | send peer bytes => exact sctx.phases_push _ phase _
  | recv peer => exact sctx.phases_push _ phase _
  | sendrecv dst sendCnt recvCnt =>
    change SharedContext.phases _ (((sctx.push phase _).push phase _).push phase _) = _
    rw [SharedContext.phases_push, SharedContext.phases_push, SharedContext.phases_push]
    simp [WorkloadOp.recvFrom, Call.recvsFrom]

theorem phases_foldl {Q : WorkloadOp → Bool} {P : Call → Bool} (h : ∀ sctx x,
    (perform sctx x).phases Q = sctx.phases Q ++ if P x.2 then [x.1] else []) (steps : List Step)
    (sctx : SharedContext) : (steps.foldl perform sctx).phases Q =
      sctx.phases Q ++ (steps.filter fun x => P x.2).map Prod.fst := by
  induction steps generalizing sctx with
  | nil => exact (List.append_nil _).symm
  | cons x steps ih =>
    rw [List.foldl_cons, ih, h, List.append_assoc, List.filter_cons]
    split_ifs <;> rfl

theorem peer_of_mem {steps : List Step} {sctx : SharedContext} {x : Phase × WorkloadOp} {peer : ℤ}
    (hx : x ∈ (steps.foldl perform sctx).fifo) (hpeer : x.2.peer = some peer) :
    x ∈ sctx.fifo ∨ ∃ y ∈ steps, y.2.peer = peer := by
  induction steps generalizing sctx with
  | nil => exact .inl hx
  | cons y steps ih =>
    rcases ih hx with hin | ⟨z, hz, hpeer⟩
    · obtain ⟨phase, c⟩ := y
      have hcase : x ∈ sctx.fifo ∨ c.peer = peer := by
        cases c with
        | send dst bytes =>
          rcases List.mem_append.1 hin with h | h
          · exact .inl h
          · obtain rfl := List.mem_singleton.1 h
            exact .inr (Option.some.inj hpeer)
        | recv src =>
          rcases List.mem_append.1 hin with h | h
          · exact .inl h
          · obtain rfl := List.mem_singleton.1 h
            exact .inr (Option.some.inj hpeer)
        | sendrecv dst sendCnt recvCnt =>
          rcases List.mem_append.1 hin with h | h
          · rcases List.mem_append.1 h with h | h
            · rcases List.mem_append.1 h with h | h
              · exact .inl h
              · obtain rfl := List.mem_singleton.1 h
                exact .inr (Option.some.inj hpeer)
            · obtain rfl := List.mem_singleton.1 h
              exact .inr (Option.some.inj hpeer)
          · obtain rfl := List.mem_singleton.1 h
            cases hpeer
      exact hcase.imp_right fun h => ⟨_, List.mem_cons_self, h⟩
    · exact .inr ⟨z, List.mem_cons_of_mem _ hz, hpeer⟩

/-! ### The traffic -/

/-- **The ranks fit together**: calls and contexts of all ranks after the collective. -/
structure Traffic (n : ℕ) (runs : ℕ → List Step × SharedContext) : Prop where
  /-- Every peer is another rank. -/
  peers : ∀ a < n, ∀ x ∈ (runs a).2.fifo, ∀ peer, x.2.peer = some peer →
    0 ≤ peer ∧ peer < n ∧ peer ≠ a
  /-- No phase comes twice. -/
  nodup : ∀ a < n, ((runs a).1.map Prod.fst).Nodup
  /-- The messages from a rank to another are sent and received in the same phases, in order. -/
  pairs : ∀ a < n, ∀ b < n, (runs a).2.phases (WorkloadOp.sendTo b) =
    (runs b).2.phases (WorkloadOp.recvFrom a)
  /-- In an exchange of parts each side receives as much as the other sends. -/
  counts : ∀ a < n, ∀ (phase : Phase) (dst sendCnt recvCnt : ℤ),
    (phase, .sendrecv dst sendCnt (some recvCnt)) ∈ (runs a).1 →
      ∃ b < n, dst = b ∧ (phase, .sendrecv a recvCnt (some sendCnt)) ∈ (runs b).1

theorem schedule_nodup (e count : ℕ) : (schedule e count).Nodup := by
  have hpow : Function.Injective fun k : ℕ => 2 ^ k := Nat.pow_right_injective (le_refl 2)
  have hrounds : (rounds e count).Nodup := by
    rw [rounds]
    split_ifs
    · exact List.nodup_range.map fun k k' h => hpow (Phase.doubling.inj h)
    · refine List.Nodup.append ?_ ?_ ?_
      · exact List.nodup_range.map fun k k' h => hpow (Phase.reduceScatter.inj h)
      · exact (List.nodup_reverse.2 List.nodup_range).map fun k k' h => hpow (Phase.allgather.inj h)
      · intro p h h'
        obtain ⟨k, -, rfl⟩ := List.mem_map.1 h
        obtain ⟨k', -, heq⟩ := List.mem_map.1 h'
        cases heq
  have hnot : ∀ p ∈ rounds e count, p ≠ .fold ∧ p ≠ .unfold := by
    intro p hp
    rw [rounds] at hp
    split_ifs at hp
    · obtain ⟨k, -, rfl⟩ := List.mem_map.1 hp
      exact ⟨nofun, nofun⟩
    · rcases List.mem_append.1 hp with hp | hp
      · obtain ⟨k, -, rfl⟩ := List.mem_map.1 hp
        exact ⟨nofun, nofun⟩
      · obtain ⟨k, -, rfl⟩ := List.mem_map.1 hp
        exact ⟨nofun, nofun⟩
  rw [schedule, List.append_assoc, List.singleton_append, List.nodup_cons, List.nodup_append]
  refine ⟨fun h => ?_, hrounds, List.nodup_singleton _, fun p hp q hq => ?_⟩
  · rcases List.mem_append.1 h with h | h
    · exact (hnot _ h).1 rfl
    · cases List.mem_singleton.1 h
  · rw [List.mem_singleton.1 hq]
    exact (hnot p hp).2

theorem traffic_of_plan {n e count : ℕ} (hle : 2 ^ e ≤ n) (hlt : n < 2 ^ (e + 1))
    {waitIds : ℕ → UInt32} : Traffic n fun a =>
      (acts (schedule e count) (plan n e count a),
        (acts (schedule e count) (plan n e count a)).foldl perform ⟨a, waitIds a, n, []⟩) where
  peers a ha x hx peer hpeer := by
    rcases peer_of_mem hx hpeer with h | ⟨y, hy, rfl⟩
    · exact absurd h List.not_mem_nil
    · obtain ⟨hphase, hc⟩ := mem_acts.1 hy
      obtain ⟨b, hb, heq, hne⟩ := plan_peer hle hlt ha hphase hc
      omega
  nodup a _ := acts_nodup (schedule_nodup e count) _
  pairs a ha b hb := by
    rw [phases_foldl (perform_sendTo b), phases_foldl (perform_recvFrom a)]
    exact congrArg _ (rounds_eq_of_plans fun p hp => plan_fits hle hlt ha hb hp)
  counts a ha phase dst sendCnt recvCnt hmem := by
    obtain ⟨hphase, hc⟩ := mem_acts.1 hmem
    obtain ⟨b, hb, hdst, hplan⟩ := plan_counts hle hlt ha hphase hc
    exact ⟨b, hb, hdst, mem_acts.2 ⟨hphase, hplan⟩⟩

/-- **The traffic of an allreduce is consistent** iff there are less than 2^30 ranks: all ranks
return, no index leaves `cnts`, and the ranks fit together. -/
theorem traffic_consistent_iff (n count : ℕ) (waitIds : ℕ → UInt32) :
    (∃ fuel runs, (∀ a < n, swmAllreduce fuel count ⟨a, waitIds a, n, []⟩ = some (runs a)) ∧
      Traffic n runs) ↔ n < 2 ^ 30 := by
  constructor
  · rintro ⟨fuel, runs, hruns, -⟩
    by_contra hbig
    have hnone := hruns 0 (by omega)
    rw [swmAllreduce, pof2Loop_eq_none (show 2 ^ 30 ≤ n by omega)] at hnone
    cases hnone
  · intro hint
    rcases Nat.eq_zero_or_pos n with rfl | hpos
    · exact ⟨0, fun _ => ([], ⟨0, 0, 0, []⟩), nofun, nofun, nofun, nofun, nofun⟩
    · have hle := Nat.pow_log_le_self 2 hpos.ne'
      have hlt := Nat.lt_pow_succ_log_self Nat.one_lt_two n
      exact ⟨_, _, fun a _ => swmAllreduce_eq ⟨a, waitIds a, n, []⟩ hle hlt hint,
        traffic_of_plan hle hlt⟩

/-- With 2^30 ranks none of them returns. -/
theorem allreduce_overflow : ¬∃ fuel runs,
    (∀ a < 2 ^ 30, swmAllreduce fuel 1 ⟨a, 0, 2 ^ 30, []⟩ = some (runs a)) ∧
    Traffic (2 ^ 30) runs := by
  rintro ⟨fuel, runs, hruns, -⟩
  have hnone := hruns 0 (Nat.two_pow_pos 30)
  rw [swmAllreduce, pof2Loop_eq_none (le_refl (2 ^ 30))] at hnone
  cases hnone

end CodesSim.Online
