import Mathlib.Data.Nat.Bitwise
import Mathlib.Algebra.Order.Ring.Nat

/-!
# Recursive halving

`2 ^ e` parties exchange in rounds; in round `k` the partners are those whose numbers differ in bit
`k` alone.  Programs run through the rounds with a mask that is shifted up to a bound or down to
zero (`whileUp`, `whileDown`).

A party that does at most one thing in a round is described by its plan (`acts`); if in every round
one plans to give what the other plans to take, both do so in the same rounds
(`rounds_eq_of_plans`).

When the parties share out `2 ^ e` blocks by halving, a party keeps the lower or the upper half of
its blocks by its bit `k`: before round `k` it has `2 ^ (e - k)` blocks from `blockStart` on, and so
has its partner (`blockStart_partner`).
-/

namespace CodesSim.Halving

/-! ### The loops -/

section Loops

variable {σ α : Type*}

/-- `while (mask < bound) { ...; mask <<= 1; }`, what each iteration makes, and the last mask. -/
def whileUp (body : ℕ → σ → Option (α × σ)) (bound mask : ℕ) (s : σ) : Option (List α × σ × ℕ) :=
  -- A mask has a bit: a shifted zero would never reach the bound.
  if 0 < mask ∧ mask < bound then
    (body mask s).bind fun r =>
      (whileUp body bound (2 * mask) r.2).map fun rest => (r.1 :: rest.1, rest.2)
  else some ([], s, mask)
termination_by bound - mask
decreasing_by omega

/-- `while (mask > 0) { ...; mask >>= 1; }`, and what each iteration makes. -/
def whileDown (body : ℕ → σ → Option (α × σ)) (mask : ℕ) (s : σ) : Option (List α × σ) :=
  if 0 < mask then
    (body mask s).bind fun r =>
      (whileDown body (mask / 2) r.2).map fun rest => (r.1 :: rest.1, rest.2)
  else some ([], s)
termination_by mask
decreasing_by omega

variable {body : ℕ → σ → Option (α × σ)} {st : ℕ → σ} {out : ℕ → α} {e : ℕ}

theorem whileUp_from (h : ∀ k < e, body (2 ^ k) (st k) = some (out k, st (k + 1))) {k : ℕ}
    (hk : k ≤ e) : whileUp body (2 ^ e) (2 ^ k) (st k) =
      some ((List.range' k (e - k)).map out, st e, 2 ^ e) := by
  induction hd : e - k generalizing k with
  | zero =>
    obtain rfl : k = e := by omega
    rw [whileUp, if_neg fun h => lt_irrefl _ h.2]
    rfl
  | succ d ih =>
    have hlt : k < e := by omega
    have hmask : 2 ^ k < 2 ^ e := Nat.pow_lt_pow_right Nat.one_lt_two hlt
    rw [whileUp, if_pos ⟨Nat.two_pow_pos k, hmask⟩, h k hlt, Option.bind_some, ← Nat.pow_succ',
      ih (k := k + 1) (by omega) (by omega)]
    rfl

/-- **The loop upwards** runs through the rounds in order. -/
theorem whileUp_range (h : ∀ k < e, body (2 ^ k) (st k) = some (out k, st (k + 1))) :
    whileUp body (2 ^ e) 1 (st 0) = some ((List.range e).map out, st e, 2 ^ e) := by
  have hfrom := whileUp_from h (Nat.zero_le e)
  rwa [Nat.sub_zero, ← List.range_eq_range'] at hfrom

/-- **The loop downwards** runs through them backwards. -/
theorem whileDown_range (h : ∀ k < e, body (2 ^ k) (st (k + 1)) = some (out k, st k)) :
    whileDown body (2 ^ e / 2) (st e) = some ((List.range e).reverse.map out, st 0) := by
  induction e with
  | zero =>
    rw [whileDown, if_neg (by omega)]
    rfl
  | succ e ih =>
    have hhalf : 2 ^ (e + 1) / 2 = 2 ^ e := by omega
    rw [hhalf, whileDown, if_pos (Nat.two_pow_pos e), h e (by omega), Option.bind_some,
      ih fun k hk => h k (by omega), List.range_succ, List.reverse_append]
    rfl

end Loops

/-! ### Plans -/

section Plans

variable {ρ α : Type*}

/-- What a party does in the rounds, in order. -/
def acts (rounds : List ρ) (plan : ρ → Option α) : List (ρ × α) :=
  rounds.filterMap fun p => (plan p).map fun x => (p, x)

variable {rounds : List ρ} {plan : ρ → Option α}

theorem mem_acts {x : ρ × α} : x ∈ acts rounds plan ↔ x.1 ∈ rounds ∧ plan x.1 = some x.2 := by
  rw [acts, List.mem_filterMap]
  constructor
  · rintro ⟨p, hp, hx⟩
    obtain ⟨y, hy, rfl⟩ := Option.map_eq_some_iff.1 hx
    exact ⟨hp, hy⟩
  · rintro ⟨hp, hx⟩
    exact ⟨x.1, hp, by rw [hx]; rfl⟩

theorem acts_append (rounds rounds' : List ρ) (plan : ρ → Option α) :
    acts (rounds ++ rounds') plan = acts rounds plan ++ acts rounds' plan :=
  List.filterMap_append

theorem acts_map {ι : Type*} {rounds : List ι} {place : ι → ρ} {out : ι → α}
    (h : ∀ i ∈ rounds, plan (place i) = some (out i)) :
    acts (rounds.map place) plan = rounds.map fun i => (place i, out i) := by
  induction rounds with
  | nil => rfl
  | cons i rounds ih =>
    have hrest := ih fun j hj => h j (List.mem_cons_of_mem _ hj)
    rw [acts] at hrest ⊢
    rw [List.map_cons, List.filterMap_cons, h i List.mem_cons_self, hrest]
    rfl

theorem acts_eq_nil (h : ∀ p ∈ rounds, plan p = none) : acts rounds plan = [] := by
  refine List.filterMap_eq_nil_iff.2 fun p hp => ?_
  rw [h p hp]
  rfl

theorem rounds_filter (rounds : List ρ) (plan : ρ → Option α) (P : α → Bool) :
    ((acts rounds plan).filter fun x => P x.2).map Prod.fst =
      rounds.filter fun p => (plan p).any P := by
  induction rounds with
  | nil => rfl
  | cons p rounds ih =>
    rw [acts] at ih ⊢
    rw [List.filterMap_cons, List.filter_cons]
    cases hp : plan p with
    | none => exact ih
    | some x =>
      change List.map _ (List.filter _ ((p, x) :: _)) = if P x = true then _ else _
      rw [List.filter_cons]
      split_ifs
      · rw [List.map_cons, ih]
      · exact ih

/-- **Plans that fit together** are carried out in the same rounds. -/
theorem rounds_eq_of_plans {plan' : ρ → Option α} {P P' : α → Bool}
    (h : ∀ p ∈ rounds, (plan p).any P = (plan' p).any P') :
    ((acts rounds plan).filter fun x => P x.2).map Prod.fst =
      ((acts rounds plan').filter fun x => P' x.2).map Prod.fst := by
  rw [rounds_filter, rounds_filter]
  exact List.filter_congr h

theorem acts_nodup (h : rounds.Nodup) (plan : ρ → Option α) :
    ((acts rounds plan).map Prod.fst).Nodup := by
  have hrounds := rounds_filter rounds plan fun _ => true
  rw [List.filter_eq_self.2 fun _ _ => rfl] at hrounds
  rw [hrounds]
  exact h.filter _

end Plans

/-! ### Partners -/

variable {e r k j : ℕ}

theorem testBit_partner (r k : ℕ) : (r ^^^ 2 ^ k).testBit k = !r.testBit k := by
  rw [Nat.testBit_xor, Nat.testBit_two_pow_self, Bool.xor_true]

theorem testBit_partner_of_ne (h : j ≠ k) : (r ^^^ 2 ^ k).testBit j = r.testBit j := by
  rw [Nat.testBit_xor, Nat.testBit_two_pow_of_ne h.symm, Bool.xor_false]

theorem lt_partner_iff : r < r ^^^ 2 ^ k ↔ r.testBit k = false := by
  have hother : ∀ j, k < j → r.testBit j = (r ^^^ 2 ^ k).testBit j :=
    fun j hj => (testBit_partner_of_ne hj.ne').symm
  constructor
  · intro hlt
    by_contra hbit
    rw [Bool.not_eq_false] at hbit
    have hpartner : (r ^^^ 2 ^ k).testBit k = false := by rw [testBit_partner, hbit]; rfl
    exact hlt.not_gt (Nat.lt_of_testBit k hpartner hbit fun j hj => (hother j hj).symm)
  · intro hbit
    have hpartner : (r ^^^ 2 ^ k).testBit k = true := by rw [testBit_partner, hbit]; rfl
    exact Nat.lt_of_testBit k hbit hpartner hother

theorem partner_ne (r k : ℕ) : r ^^^ 2 ^ k ≠ r := by
  intro heq
  have hbit := testBit_partner r k
  rw [heq] at hbit
  exact Bool.not_ne_self _ hbit.symm

theorem partner_partner (r k : ℕ) : r ^^^ 2 ^ k ^^^ 2 ^ k = r := Nat.xor_xor_cancel_right r (2 ^ k)

theorem partner_lt (hr : r < 2 ^ e) (hk : k < e) : r ^^^ 2 ^ k < 2 ^ e :=
  Nat.xor_lt_two_pow hr (Nat.pow_lt_pow_right Nat.one_lt_two hk)

/-! ### Blocks -/

/-- The first block of a party before round `k`. -/
def blockStart (e r : ℕ) : ℕ → ℕ
  | 0 => 0
  | k + 1 => blockStart e r k + if r.testBit k then 2 ^ (e - 1 - k) else 0

theorem half_eq (hk : k < e) : 2 ^ e / (2 ^ k * 2) = 2 ^ (e - 1 - k) := by
  rw [← Nat.pow_succ, Nat.pow_div (by omega) (by omega)]
  congr 1
  omega

theorem two_halves (hk : k < e) : 2 ^ (e - k) = 2 ^ (e - 1 - k) + 2 ^ (e - 1 - k) := by
  have hsucc : e - k = (e - 1 - k) + 1 := by omega
  rw [hsucc, Nat.pow_succ, Nat.mul_two]

theorem blockStart_add_le (hk : k ≤ e) : blockStart e r k + 2 ^ (e - k) ≤ 2 ^ e := by
  induction k with
  | zero => rw [blockStart, Nat.sub_zero, Nat.zero_add]
  | succ k ih =>
    have hblocks := ih (by omega)
    have hexp : e - (k + 1) = e - 1 - k := by omega
    rw [two_halves (by omega)] at hblocks
    rw [blockStart, hexp]
    generalize 2 ^ (e - 1 - k) = half at hblocks ⊢
    split_ifs <;> omega

/-- **Partners share their blocks** before their round. -/
theorem blockStart_partner (h : j ≤ k) : blockStart e (r ^^^ 2 ^ k) j = blockStart e r j := by
  induction j with
  | zero => rfl
  | succ j ih => rw [blockStart, blockStart, ih (by omega), testBit_partner_of_ne (by omega)]

end CodesSim.Halving
