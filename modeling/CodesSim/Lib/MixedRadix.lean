import Mathlib.Algebra.BigOperators.Group.List.Basic

/-!
# Mixed radix numerals

A number below the product of the radices and the list of its digits, the lowest one first:
`digits_value` and `value_digits` say that the one determines the other.
-/

namespace CodesSim.MixedRadix

/-- The digits of a number. -/
def digits : List ℕ → ℕ → List ℕ
  | [], _ => []
  | b :: bs, n => n % b :: digits bs (n / b)

/-- The number with some digits. -/
def value : List ℕ → List ℕ → ℕ
  | b :: bs, x :: xs => x + b * value bs xs
  | _, _ => 0

/-- There is a digit for each radix, and it is below it. -/
def Valid (bs xs : List ℕ) : Prop := List.Forall₂ (fun x b => x < b) xs bs

variable {bs xs : List ℕ}

theorem digits_value (h : Valid bs xs) : digits bs (value bs xs) = xs := by
  induction h with
  | nil => rfl
  | @cons x b xs bs hx _ ih =>
    have hb : 0 < b := Nat.zero_lt_of_lt hx
    rw [value, digits, Nat.add_mul_mod_self_left, Nat.mod_eq_of_lt hx,
      Nat.add_mul_div_left _ _ hb, Nat.div_eq_of_lt hx, Nat.zero_add, ih]

theorem value_lt (h : Valid bs xs) : value bs xs < bs.prod := by
  induction h with
  | nil => exact Nat.zero_lt_one
  | @cons x b xs bs hx _ ih =>
    have hle : b * (value bs xs + 1) ≤ b * bs.prod := Nat.mul_le_mul_left b ih
    rw [Nat.mul_add] at hle
    rw [value, List.prod_cons]
    omega

theorem value_digits (hbs : ∀ b ∈ bs, 0 < b) {n : ℕ} (h : n < bs.prod) :
    value bs (digits bs n) = n := by
  induction bs generalizing n with
  | nil => exact (Nat.lt_one_iff.1 h).symm
  | cons b bs ih =>
    have hdiv : n / b < bs.prod := by
      rw [Nat.div_lt_iff_lt_mul (hbs b List.mem_cons_self), Nat.mul_comm]
      exact h
    rw [digits, value, ih (fun b hb => hbs b (List.mem_cons_of_mem _ hb)) hdiv]
    exact Nat.mod_add_div n b

theorem valid_digits (hbs : ∀ b ∈ bs, 0 < b) (n : ℕ) : Valid bs (digits bs n) := by
  induction bs generalizing n with
  | nil => exact .nil
  | cons b bs ih =>
    exact .cons (Nat.mod_lt _ (hbs b List.mem_cons_self))
      (ih (fun b hb => hbs b (List.mem_cons_of_mem _ hb)) _)

/-- A digit is replaced. -/
theorem Valid.set (h : Valid bs xs) {i v : ℕ} (hv : ∀ b, bs[i]? = some b → v < b) :
    Valid bs (xs.set i v) := by
  induction h generalizing i with
  | nil => exact .nil
  | @cons x b xs bs hx hxs ih =>
    cases i with
    | zero => exact .cons (hv b rfl) hxs
    | succ i => exact .cons hx (ih fun b hb => hv b hb)

theorem Valid.getD_lt (h : Valid bs xs) {i : ℕ} (hi : i < bs.length) :
    xs.getD i 0 < bs.getD i 0 := by
  induction h generalizing i with
  | nil => cases hi
  | cons hx _ ih =>
    cases i with
    | zero => exact hx
    | succ i => exact ih (Nat.lt_of_succ_lt_succ hi)

end CodesSim.MixedRadix
