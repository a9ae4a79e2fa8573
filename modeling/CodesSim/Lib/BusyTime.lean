import Mathlib.MeasureTheory.Measure.Lebesgue.Basic

/-!
# The time in which something is active

Periods come in the order in which they start; they may overlap, lie inside one another or touch.
The time in which at least one is active is accumulated lazily: `Busy` has the time of what is over,
`time`, and one period from `prev` to `next` that may still be extended.  A period that starts after
`next` closes it.

* `Busy.Measures.step` : what a step preserves;
* `Busy.Measures.volume_active` : what is reported is the measure of the union of the periods.

The times are in any ordered group that embeds in the reals.
-/

namespace CodesSim

open MeasureTheory Set

variable {K : Type*} [AddCommGroup K]

/-- The active time up to `prev` and the active period that is still open. -/
structure Busy (K : Type*) where
  (time prev next : K)

/-- Nothing has been active. -/
def Busy.init : Busy K := ⟨0, 0, 0⟩

/-- The active time, with that of the open period. -/
def Busy.total (b : Busy K) : K := b.time + (b.next - b.prev)

/-- Something becomes active from `now` to `stop`. -/
def Busy.step [LinearOrder K] (b : Busy K) (now stop : K) : Busy K where
  time := if now > b.next then b.time + (b.next - b.prev) else b.time
  prev := if now > b.next then now else b.prev
  next := if stop > b.next then stop else b.next

/-- The points at which one of the periods is active. -/
def active (φ : K →+ ℝ) (periods : List (K × K)) : Set ℝ :=
  {t | ∃ p ∈ periods, t ∈ Icc (φ p.1) (φ p.2)}

variable {φ : K →+ ℝ} {periods : List (K × K)}

@[simp] theorem active_nil : active φ [] = ∅ := by
  simp [active]

theorem active_snoc (p : K × K) :
    active φ (periods ++ [p]) = active φ periods ∪ Icc (φ p.1) (φ p.2) := by
  ext t
  simp only [active, List.mem_append, List.mem_singleton, mem_ofPred_eq, mem_union, or_and_right,
    exists_or, exists_eq_left]

namespace Busy

variable [LinearOrder K] {b : Busy K} {clock now stop : K}

/-- `b` is what is known of the periods at the time `clock`: what lies before `prev` is measured by
`time`, and from `prev` to `next` something is always active.  The origin is counted as active. -/
structure Measures (φ : K →+ ℝ) (b : Busy K) (periods : List (K × K)) (clock : K) : Prop where
  prev_le : b.prev ≤ clock
  le : b.prev ≤ b.next
  time_nonneg : 0 ≤ φ b.time
  closed : ∃ A, A ⊆ Iio (φ b.prev) ∧ volume A = ENNReal.ofReal (φ b.time) ∧
    insert 0 (active φ periods) = A ∪ Icc (φ b.prev) (φ b.next)

theorem Measures.init (h : 0 ≤ clock) : Measures φ init [] clock where
  prev_le := h
  le := le_rfl
  time_nonneg := by rw [Busy.init, map_zero]
  closed := ⟨∅, empty_subset _, by simp [Busy.init], by simp [Busy.init]⟩

/-- Time passes. -/
theorem Measures.mono (h : Measures φ b periods clock) (hle : clock ≤ now) :
    Measures φ b periods now :=
  { h with prev_le := h.prev_le.trans hle }

/-- A period that starts behind `next` closes the open one; another extends it. -/
theorem Measures.step (hφ : StrictMono φ) (h : Measures φ b periods clock) (hclock : clock ≤ now)
    (hstop : now ≤ stop) :
    Measures φ (b.step now stop) (periods ++ [(now, stop)]) now := by
  obtain ⟨A, hA, hvol, hactive⟩ := h.closed
  have hprev : b.prev ≤ now := h.prev_le.trans hclock
  have hopen : φ b.prev ≤ φ b.next := hφ.monotone h.le
  have hnew : insert 0 (active φ (periods ++ [(now, stop)])) =
      A ∪ Icc (φ b.prev) (φ b.next) ∪ Icc (φ now) (φ stop) := by
    rw [active_snoc, ← hactive, insert_union]
  by_cases hgap : now > b.next
  · have hlt : φ b.next < φ now := hφ hgap
    have hdisj : Disjoint A (Icc (φ b.prev) (φ b.next)) :=
      disjoint_left.2 fun t ht hmem => absurd hmem.1 (not_le.2 (hA ht))
    have hlater : stop > b.next := lt_of_lt_of_le hgap hstop
    rw [Busy.step, if_pos hgap, if_pos hgap, if_pos hlater]
    refine ⟨le_rfl, hstop, ?_, A ∪ Icc (φ b.prev) (φ b.next), ?_, ?_, hnew⟩
    · dsimp only
      rw [map_add, map_sub]
      linarith [h.time_nonneg]
    · rintro t (ht | ht)
      · exact ((hA ht).trans_le hopen).trans hlt
      · exact ht.2.trans_lt hlt
    · rw [measure_union hdisj measurableSet_Icc, hvol, Real.volume_Icc,
        ← ENNReal.ofReal_add h.time_nonneg (sub_nonneg.2 hopen), map_add, map_sub]
  · have hle : now ≤ b.next := not_lt.1 hgap
    rw [Busy.step, if_neg hgap, if_neg hgap]
    have hmax : (if stop > b.next then stop else b.next) = max b.next stop := by
      rw [max_def_lt]
    rw [hmax]
    refine ⟨hprev, h.le.trans (le_max_left _ _), h.time_nonneg, A, hA, hvol, ?_⟩
    rw [hnew, union_assoc, Icc_union_Icc' (hφ.monotone hle) (hφ.monotone (hprev.trans hstop)),
      min_eq_left (hφ.monotone hprev), hφ.monotone.map_max]

/-- **The active time.**  What is reported at the end is the measure of the union. -/
theorem Measures.volume_active (hφ : StrictMono φ) (h : Measures φ b periods clock) :
    volume (active φ periods) = ENNReal.ofReal (φ b.total) := by
  obtain ⟨A, hA, hvol, hactive⟩ := h.closed
  have hopen : φ b.prev ≤ φ b.next := hφ.monotone h.le
  have hdisj : Disjoint A (Icc (φ b.prev) (φ b.next)) :=
    disjoint_left.2 fun t ht hmem => absurd hmem.1 (not_le.2 (hA ht))
  rw [← measure_congr (insert_ae_eq_self 0 (active φ periods)), hactive,
    measure_union hdisj measurableSet_Icc, hvol, Real.volume_Icc,
    ← ENNReal.ofReal_add h.time_nonneg (sub_nonneg.2 hopen), total, map_add, map_sub]

end Busy

end CodesSim
