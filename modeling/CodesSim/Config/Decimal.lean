import CodesSim.Config.LpGroups
import CodesSim.Mapping.Context
import Mathlib.Data.List.TakeWhile

/-!
# Numbers in values

What number a value denotes (`decimal`), and when `strtol` reads this number from the first 255
characters and an `int` holds it.
-/

namespace CodesSim.Config

open CodesMapping

/-- The number a text denotes: white space, a sign, and digits up to its end. -/
def decimal (text : CStr) : Option ℤ :=
  let r := splitSign (text.dropWhile isSpace)
  if r.2 ≠ [] ∧ r.2.all Char.isDigit = true then
    some (if r.1 then -digitsVal r.2 else digitsVal r.2)
  else none

/-! ### Digits -/

theorem foldl_digits_ge (digits : CStr) (n : ℕ) :
    10 ^ digits.length * n ≤ digits.foldl (fun n c => 10 * n + (c.toNat - '0'.toNat)) n := by
  induction digits generalizing n with
  | nil => simp
  | cons c digits ih =>
    calc 10 ^ (digits.length + 1) * n = 10 ^ digits.length * (10 * n) := by
          rw [Nat.pow_succ, Nat.mul_assoc]
      _ ≤ 10 ^ digits.length * (10 * n + (c.toNat - '0'.toNat)) :=
          Nat.mul_le_mul_left _ (Nat.le_add_right _ _)
      _ ≤ _ := ih _

theorem digitsVal_append (digits more : CStr) (hmore : more ≠ []) :
    10 * digitsVal digits ≤ digitsVal (digits ++ more) := by
  have hlen : 1 ≤ more.length := List.length_pos_of_ne_nil hmore
  calc 10 * digitsVal digits ≤ 10 ^ more.length * digitsVal digits :=
        Nat.mul_le_mul_right _ (by simpa using Nat.pow_le_pow_right (show 0 < 10 by decide) hlen)
    _ ≤ digitsVal (digits ++ more) := by
        unfold digitsVal
        rw [List.foldl_append]
        exact foldl_digits_ge more _

theorem splitSign_append {text : CStr} (h : text ≠ []) (more : CStr) :
    splitSign (text ++ more) = ((splitSign text).1, (splitSign text).2 ++ more) := by
  cases text with
  | nil => exact absurd rfl h
  | cons c text =>
    by_cases hminus : c = '-'
    · subst hminus
      rfl
    · by_cases hplus : c = '+'
      · subst hplus
        rfl
      · simp [splitSign, hminus, hplus]

theorem takeWhile_of_all {digits : CStr} (h : digits.all Char.isDigit = true) :
    digits.takeWhile Char.isDigit = digits :=
  List.takeWhile_eq_self_iff.2 (List.all_eq_true.1 h)

/-! ### Reading -/

/-- The digits that are read. -/
def readDigits (data : CStr) : CStr :=
  (splitSign (data.dropWhile isSpace)).2.takeWhile Char.isDigit

theorem checkedStrtol_eq_some {data : CStr} {k : ℤ} (h : checkedStrtol data = some k) :
    (splitSign (data.dropWhile isSpace)).1 = false ∧ 0 < digitsVal (readDigits data) ∧
      k = wrapInt (digitsVal (readDigits data)) := by
  rw [checkedStrtol] at h
  split_ifs at h with hbad
  obtain ⟨hpos, herrno⟩ := not_or.1 hbad
  have hk := (Option.some.inj h).symm
  unfold strtol at hpos herrno hk
  unfold readDigits
  generalize splitSign (data.dropWhile isSpace) = r at *
  obtain ⟨neg, text⟩ := r
  simp only at hpos herrno hk ⊢
  generalize digitsVal (text.takeWhile Char.isDigit) = n at *
  cases neg with
  | true =>
    rw [if_pos rfl] at hpos
    split_ifs at hpos <;> simp only at hpos <;> omega
  | false =>
    simp only [Bool.false_eq_true, if_false] at hpos herrno hk
    split_ifs at hpos herrno hk with h1 h2
    · exact absurd rfl herrno
    · exact absurd rfl herrno
    · exact ⟨rfl, by simp only at hpos; omega, hk⟩

/-- **A number that fits is read as it is.** -/
theorem checkedStrtol_of_decimal {v : CStr} {n k : ℤ} (hlen : v.length ≤ 255)
    (hn : decimal v = some n) (hint : n < 2 ^ 31) (h : checkedStrtol (v.take 255) = some k) :
    k = n ∧ 0 < k := by
  rw [List.take_of_length_le hlen] at h
  obtain ⟨hsign, hpos, hk⟩ := checkedStrtol_eq_some h
  unfold decimal at hn
  simp only [hsign, Bool.false_eq_true, if_false] at hn
  split_ifs at hn with hdigits
  have heq := Option.some.inj hn
  rw [readDigits, takeWhile_of_all hdigits.2] at hpos hk
  generalize digitsVal (splitSign (v.dropWhile isSpace)).2 = m at *
  rw [wrapInt_natCast (by omega)] at hk
  omega

/-- **What is read is what is denoted** only if the value is a number that fits. -/
theorem decimal_eq_read_iff {v : CStr} {k : ℤ} (h : checkedStrtol (v.take 255) = some k) :
    decimal v = some k ↔ v.length ≤ 255 ∧ ∃ n, decimal v = some n ∧ n < 2 ^ 31 := by
  constructor
  · intro hk
    obtain ⟨hsign, hpos, hwrap⟩ := checkedStrtol_eq_some h
    have hkle : k < 2 ^ 31 := by
      rw [hwrap]
      exact (wrapInt_bounds _).2
    refine ⟨?_, k, hk, hkle⟩
    by_contra hlong
    -- the digits that were cut off make the number larger
    have hsplit : v = v.take 255 ++ v.drop 255 := (List.take_append_drop 255 v).symm
    have hmore : v.drop 255 ≠ [] := by
      rw [ne_eq, List.drop_eq_nil_iff]
      omega
    have hne : (v.take 255).dropWhile isSpace ≠ [] := by
      intro hnil
      rw [readDigits, hnil] at hpos
      exact absurd hpos (by decide)
    have hdrop : v.dropWhile isSpace = (v.take 255).dropWhile isSpace ++ v.drop 255 := by
      conv_lhs => rw [hsplit]
      rw [List.dropWhile_append, if_neg]
      rwa [List.isEmpty_iff]
    unfold decimal at hk
    simp only [hdrop, splitSign_append hne, hsign, Bool.false_eq_true, if_false] at hk
    split_ifs at hk with hdigits
    have hall := hdigits.2
    rw [List.all_append, Bool.and_eq_true] at hall
    have heq := Option.some.inj hk
    have hten := digitsVal_append (splitSign ((v.take 255).dropWhile isSpace)).2 _ hmore
    rw [readDigits, takeWhile_of_all hall.1] at hpos hwrap
    generalize digitsVal (splitSign ((v.take 255).dropWhile isSpace)).2 = m at *
    have hle : wrapInt m ≤ m := by
      rw [wrapInt, Int.bmod_def]
      omega
    omega
  · rintro ⟨hlen, n, hn, hint⟩
    rw [(checkedStrtol_of_decimal hlen hn hint h).1]
    exact hn

end CodesSim.Config
