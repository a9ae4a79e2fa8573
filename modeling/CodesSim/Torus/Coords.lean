import CodesSim.Lib.MixedRadix
import CodesSim.Mapping.RoundTrip
import CodesSim.Torus.Basic
import Mathlib.Tactic.Ring

/-!
# The geometry of the torus

If the nodes and positions fit in an `int` (`Lengths`), nodes and coordinates are in bijection
(`toDimId_toFlatId`, `toFlatId_toDimId`).  A step in a direction adds a constant to one coordinate,
so that going once around a ring returns to the start (`iterate_neighbour`).  Dimension-order
routing keeps the direction inside a dimension and never goes back to an earlier one
(`dor_neighbour`), and it has a hop for every node but the destination (`dor_isSome`).
-/

namespace CodesSim.Torus

open MixedRadix (digits value digits_value value_lt value_digits valid_digits)

/-- The number of nodes. -/
def numNodes (lens : List ℕ) : ℕ := lens.prod

/-- The coordinates are inside the torus. -/
def InTorus (lens coords : List ℕ) : Prop := List.Forall₂ (fun x len => x < len) coords lens

/-! ### Coordinates -/

theorem toDimId_eq (lens : List ℕ) (node : ℕ) : toDimId node lens = digits lens node := by
  induction lens generalizing node with
  | nil => rfl
  | cons len lens ih => rw [toDimId, digits, ih]

theorem toFlatIdFrom_eq (mult : ℕ) (lens xs : List ℕ) :
    toFlatIdFrom mult lens xs = mult * value lens xs := by
  induction lens generalizing mult xs with
  | nil => rw [toFlatIdFrom, value, Nat.mul_zero] <;> simp
  | cons len lens ih =>
    cases xs with
    | nil => rw [toFlatIdFrom, value, Nat.mul_zero] <;> simp
    | cons x xs =>
      rw [toFlatIdFrom, value, ih]
      ring

theorem toFlatId_eq (lens xs : List ℕ) : toFlatId lens xs = value lens xs % 2 ^ 32 := by
  rw [toFlatId, toFlatIdFrom_eq, Nat.one_mul]

/-- The lengths of a torus whose nodes and positions fit in an `int`; for a position the code adds
up a position, one and a length. -/
structure Lengths (lens : List ℕ) : Prop where
  one_le : ∀ len ∈ lens, 1 ≤ len
  double_lt : ∀ len ∈ lens, 2 * len < 2 ^ 31
  numNodes_lt : numNodes lens < 2 ^ 31

section

variable {lens coords : List ℕ} (hlens : Lengths lens)

include hlens

theorem toFlatId_of_inTorus (h : InTorus lens coords) :
    toFlatId lens coords = value lens coords := by
  have hlt : value lens coords < numNodes lens := value_lt h
  have := hlens.numNodes_lt
  rw [toFlatId_eq, Nat.mod_eq_of_lt (by omega)]

theorem toDimId_toFlatId (h : InTorus lens coords) :
    toDimId (toFlatId lens coords) lens = coords := by
  rw [toDimId_eq, toFlatId_of_inTorus hlens h]
  exact digits_value h

theorem toFlatId_lt (h : InTorus lens coords) : toFlatId lens coords < numNodes lens := by
  rw [toFlatId_of_inTorus hlens h]
  exact value_lt h

end

theorem inTorus_toDimId {lens : List ℕ} (hlens : ∀ len ∈ lens, 1 ≤ len) (node : ℕ) :
    InTorus lens (toDimId node lens) := by
  rw [toDimId_eq]
  exact valid_digits hlens node

theorem toFlatId_toDimId {lens : List ℕ} (hlens : Lengths lens) {node : ℕ}
    (h : node < numNodes lens) : toFlatId lens (toDimId node lens) = node := by
  rw [toFlatId_of_inTorus hlens (inTorus_toDimId hlens.one_le node), toDimId_eq]
  exact value_digits hlens.one_le h

theorem InTorus.set {lens coords : List ℕ} (h : InTorus lens coords) (j v : ℕ)
    (hv : 1 ≤ lens.getD j 1) : InTorus lens (coords.set j (v % lens.getD j 1)) := by
  refine MixedRadix.Valid.set h fun b hb => ?_
  rw [List.getD_eq_getElem?_getD, hb] at hv ⊢
  exact Nat.mod_lt _ hv

theorem InTorus.getD_lt {lens coords : List ℕ} (h : InTorus lens coords) (dim : ℕ) :
    coords.getD dim 0 < lens.getD dim 1 := by
  induction h generalizing dim with
  | nil => simp
  | cons hx _ ih =>
    cases dim with
    | zero => simpa using hx
    | succ dim => simpa using ih dim

theorem one_le_getD {lens : List ℕ} (hlens : ∀ len ∈ lens, 1 ≤ len) (j : ℕ) :
    1 ≤ lens.getD j 1 := by
  rw [List.getD_eq_getElem?_getD]
  cases h : lens[j]? with
  | none => simp
  | some len => exact hlens len (List.mem_of_getElem? h)

theorem Lengths.double_getD_lt {lens : List ℕ} (hlens : Lengths lens) (j : ℕ) :
    2 * lens.getD j 1 < 2 ^ 31 := by
  rw [List.getD_eq_getElem?_getD]
  cases h : lens[j]? with
  | none => simp
  | some len => exact hlens.double_lt len (List.mem_of_getElem? h)

/-! ### Steps -/

/-- What a step in a direction adds to the coordinate. -/
def stepOf (len dir : ℕ) : ℕ := if dir = 1 then 1 else len - 1

theorem ringPosition_natCast {n : ℕ} (h : n < 2 ^ 31) (len : ℕ) : ringPosition n len = n % len := by
  have hle := Nat.mod_le n len
  rw [ringPosition, CodesMapping.wrapInt_natCast h, Int.tmod_eq_emod_of_nonneg (by omega),
    ← Int.natCast_mod, bits]
  omega

theorem neighbour_eq {lens : List ℕ} (hlens : Lengths lens) (node dim dir : ℕ) :
    neighbour lens node dim dir = toFlatId lens ((toDimId node lens).set dim
      (((toDimId node lens).getD dim 0 + stepOf (lens.getD dim 1) dir) % lens.getD dim 1)) := by
  have hx := (inTorus_toDimId hlens.one_le node).getD_lt dim
  have hdouble := hlens.double_getD_lt dim
  simp only [neighbour, neighbourPlus, neighbourMinus, stepOf]
  generalize (toDimId node lens).getD dim 0 = x at hx ⊢
  generalize lens.getD dim 1 = len at hx hdouble ⊢
  split_ifs with h
  · have hcast : (x : ℤ) + 1 + len = ((x + 1 + len : ℕ) : ℤ) := by push_cast; rfl
    rw [hcast, ringPosition_natCast (by omega), Nat.add_mod_right]
  · have hcast : (x : ℤ) - 1 + len = ((x + (len - 1) : ℕ) : ℤ) := by omega
    rw [hcast, ringPosition_natCast (by omega)]

theorem toDimId_neighbour {lens : List ℕ} (hlens : Lengths lens) (node dim dir : ℕ) :
    toDimId (neighbour lens node dim dir) lens = (toDimId node lens).set dim
      (((toDimId node lens).getD dim 0 + stepOf (lens.getD dim 1) dir) % lens.getD dim 1) := by
  rw [neighbour_eq hlens]
  exact toDimId_toFlatId hlens
    ((inTorus_toDimId hlens.one_le node).set dim _ (one_le_getD hlens.one_le dim))

theorem neighbour_lt {lens : List ℕ} (hlens : Lengths lens) (node dim dir : ℕ) :
    neighbour lens node dim dir < numNodes lens := by
  rw [neighbour_eq hlens]
  exact toFlatId_lt hlens
    ((inTorus_toDimId hlens.one_le node).set dim _ (one_le_getD hlens.one_le dim))

theorem toDimId_iterate {lens : List ℕ} (hlens : Lengths lens) (node dim dir i : ℕ) :
    toDimId ((fun n => neighbour lens n dim dir)^[i] node) lens =
      (toDimId node lens).set dim
        (((toDimId node lens).getD dim 0 + i * stepOf (lens.getD dim 1) dir) %
          lens.getD dim 1) := by
  have hin := inTorus_toDimId hlens.one_le node
  have hlen : (toDimId node lens).length = lens.length := hin.length_eq
  induction i with
  | zero =>
    rw [Function.iterate_zero, id, Nat.zero_mul, Nat.add_zero, Nat.mod_eq_of_lt (hin.getD_lt dim)]
    by_cases hd : dim < (toDimId node lens).length
    · simp [List.getD_eq_getElem?_getD, hd]
    · rw [List.set_eq_of_length_le (by omega)]
  | succ i ih =>
    rw [Function.iterate_succ_apply', toDimId_neighbour hlens, ih, List.set_set]
    by_cases hd : dim < (toDimId node lens).length
    · have hget : ∀ v, ((toDimId node lens).set dim v).getD dim 0 = v := by
        intro v
        simp [List.getD_eq_getElem?_getD, hd]
      rw [hget, Nat.mod_add_mod, Nat.add_mul, Nat.one_mul, Nat.add_assoc]
    · rw [List.set_eq_of_length_le (by omega), List.set_eq_of_length_le (by omega)]

/-- **Once around a ring.** -/
theorem iterate_neighbour {lens : List ℕ} (hlens : Lengths lens) {node : ℕ}
    (h : node < numNodes lens) (dim dir : ℕ) :
    (fun n => neighbour lens n dim dir)^[lens.getD dim 1] node = node := by
  have hlen := one_le_getD hlens.one_le dim
  have hlt : (fun n => neighbour lens n dim dir)^[lens.getD dim 1] node < numNodes lens := by
    obtain ⟨k, hk⟩ : ∃ k, lens.getD dim 1 = k + 1 := ⟨lens.getD dim 1 - 1, by omega⟩
    rw [hk, Function.iterate_succ_apply']
    exact neighbour_lt hlens _ _ _
  have h0 := toDimId_iterate hlens node dim dir 0
  have hL := toDimId_iterate hlens node dim dir (lens.getD dim 1)
  rw [Nat.zero_mul, Nat.add_zero, Function.iterate_zero, id] at h0
  rw [Nat.add_mul_mod_self_left, ← h0] at hL
  rw [← toFlatId_toDimId hlens hlt, hL, toFlatId_toDimId hlens h]

/-! ### Dimension-order routing -/

theorem dorDir_cases (len x y : ℕ) :
    (x = y ∧ dorDir len x y = none) ∨
    (x < y + len / 2 + 1 ∧ y < x ∨ x + len / 2 < y) ∧ dorDir len x y = some 0 ∨
    (y < x + len / 2 + 1 ∧ x < y ∨ y + len / 2 < x) ∧ dorDir len x y = some 1 := by
  simp only [dorDir]
  split_ifs with h1 h2 h3 h4
  · exact .inr (.inr ⟨by omega, rfl⟩)
  · exact .inr (.inl ⟨by omega, rfl⟩)
  · exact .inr (.inl ⟨by omega, rfl⟩)
  · exact .inr (.inr ⟨by omega, rfl⟩)
  · exact .inl ⟨by omega, rfl⟩

theorem dorDir_eq_none {len x y : ℕ} : dorDir len x y = none ↔ x = y := by
  constructor
  · intro h
    obtain ⟨he, -⟩ | ⟨-, h'⟩ | ⟨-, h'⟩ := dorDir_cases len x y
    · exact he
    · simp [h'] at h
    · simp [h'] at h
  · rintro rfl
    obtain ⟨-, h⟩ | ⟨h, -⟩ | ⟨h, -⟩ := dorDir_cases len x x
    · exact h
    · omega
    · omega

theorem mod_stepOf_zero {len x : ℕ} (hx : x < len) :
    (x + stepOf len 0) % len = if x = 0 then len - 1 else x - 1 := by
  simp only [stepOf, Nat.zero_ne_one, ↓reduceIte]
  split_ifs with h0
  · rw [h0, Nat.zero_add, Nat.mod_eq_of_lt (by omega)]
  · rw [show x + (len - 1) = (x - 1) + len by omega, Nat.add_mod_right,
      Nat.mod_eq_of_lt (by omega)]

theorem mod_stepOf_one {len x : ℕ} (hx : x < len) :
    (x + stepOf len 1) % len = if x + 1 = len then 0 else x + 1 := by
  simp only [stepOf, ↓reduceIte]
  split_ifs with h0
  · rw [h0, Nat.mod_self]
  · exact Nat.mod_eq_of_lt (by omega)

/-- A step along a dimension reaches the destination coordinate or is followed by another one in
the same direction. -/
theorem dorDir_step {len x y dir : ℕ} (hx : x < len) (hy : y < len)
    (h : dorDir len x y = some dir) :
    (x + stepOf len dir) % len = y ∨ dorDir len ((x + stepOf len dir) % len) y = some dir := by
  obtain ⟨-, h'⟩ | ⟨hlt, h'⟩ | ⟨hlt, h'⟩ := dorDir_cases len x y
  · simp [h'] at h
  · obtain rfl : 0 = dir := Option.some.inj (h'.symm.trans h)
    rw [mod_stepOf_zero hx]
    obtain ⟨he, -⟩ | ⟨-, hd⟩ | ⟨hlt', -⟩ := dorDir_cases len (if x = 0 then len - 1 else x - 1) y
    · exact .inl he
    · exact .inr hd
    · exfalso
      split_ifs at hlt' <;> omega
  · obtain rfl : 1 = dir := Option.some.inj (h'.symm.trans h)
    rw [mod_stepOf_one hx]
    obtain ⟨he, -⟩ | ⟨hlt', -⟩ | ⟨-, hd⟩ := dorDir_cases len (if x + 1 = len then 0 else x + 1) y
    · exact .inl he
    · exfalso
      split_ifs at hlt' <;> omega
    · exact .inr hd

theorem dorDir_lt {len x y dir : ℕ} (h : dorDir len x y = some dir) : dir < 2 := by
  obtain ⟨-, h'⟩ | ⟨-, h'⟩ | ⟨-, h'⟩ := dorDir_cases len x y <;> rw [h'] at h <;> cases h <;> decide

theorem dorScan_lt {i j dir : ℕ} {lens xs ys : List ℕ}
    (h : dorScan i lens xs ys = some (j, dir)) : i ≤ j ∧ j - i < lens.length ∧ dir < 2 := by
  induction lens generalizing i xs ys with
  | nil => simp [dorScan] at h
  | cons len lens ih =>
    cases xs with
    | nil => simp [dorScan] at h
    | cons x xs =>
      cases ys with
      | nil => simp [dorScan] at h
      | cons y ys =>
        rw [dorScan] at h
        cases hd : dorDir len x y with
        | some dir' =>
          simp only [hd, Option.some.injEq, Prod.mk.injEq] at h
          obtain ⟨rfl, rfl⟩ := h
          exact ⟨le_refl _, by simp, dorDir_lt hd⟩
        | none =>
          simp only [hd] at h
          obtain ⟨h1, h2, h3⟩ := ih h
          exact ⟨by omega, by simp only [List.length_cons]; omega, h3⟩

/-- After the hop it chose, the scan does not stop at an earlier dimension, nor at the same one in
the other direction. -/
theorem dorScan_step {i j dir : ℕ} {lens xs ys : List ℕ} (hxs : InTorus lens xs)
    (hys : InTorus lens ys) (h : dorScan i lens xs ys = some (j, dir)) {j' dir' : ℕ}
    (h' : dorScan i lens (xs.set (j - i)
      ((xs.getD (j - i) 0 + stepOf (lens.getD (j - i) 1) dir) % lens.getD (j - i) 1)) ys =
        some (j', dir')) : j < j' ∨ (j' = j ∧ dir' = dir) := by
  induction hxs generalizing i ys with
  | nil => simp [dorScan] at h
  | @cons x len xs lens hx _ ih =>
    cases hys with
    | @cons y _ ys _ hy hys =>
      rw [dorScan] at h
      cases hd : dorDir len x y with
      | some d =>
        simp only [hd, Option.some.injEq, Prod.mk.injEq] at h
        obtain ⟨rfl, rfl⟩ := h
        simp only [Nat.sub_self, List.set_cons_zero, List.getD_cons_zero, dorScan] at h'
        rcases dorDir_step hx hy hd with he | he
        · rw [dorDir_eq_none.2 he] at h'
          exact .inl (by have := (dorScan_lt h').1; omega)
        · simp only [he, Option.some.injEq, Prod.mk.injEq] at h'
          exact .inr ⟨h'.1.symm, h'.2.symm⟩
      | none =>
        simp only [hd] at h
        obtain ⟨hle, -⟩ := dorScan_lt h
        have hj : j - i = j - (i + 1) + 1 := by omega
        rw [hj, List.set_cons_succ, dorScan, hd] at h'
        simp only [List.getD_cons_succ] at h'
        exact ih hys h h'

theorem eq_of_dorScan_eq_none {i : ℕ} {lens xs ys : List ℕ} (hxs : InTorus lens xs)
    (hys : InTorus lens ys) (h : dorScan i lens xs ys = none) : xs = ys := by
  induction hxs generalizing i ys with
  | nil => cases hys; rfl
  | @cons x len xs lens _ _ ih =>
    cases hys with
    | @cons y _ ys _ hy hys =>
      rw [dorScan] at h
      cases hd : dorDir len x y with
      | some d => simp [hd] at h
      | none =>
        simp only [hd] at h
        rw [dorDir_eq_none.1 hd, ih hys h]

variable {lens : List ℕ} {node dest dim dir : ℕ}

theorem dor_isSome (hlens : Lengths lens) (hn : node < numNodes lens)
    (hd : dest < numNodes lens) (hne : node ≠ dest) :
    ∃ dim dir, dimensionOrderRouting lens node dest = some (dim, dir) := by
  cases h : dimensionOrderRouting lens node dest with
  | some r => exact ⟨r.1, r.2, rfl⟩
  | none =>
    have := eq_of_dorScan_eq_none (inTorus_toDimId hlens.one_le node)
      (inTorus_toDimId hlens.one_le dest) h
    exact absurd (by rw [← toFlatId_toDimId hlens hn, this, toFlatId_toDimId hlens hd]) hne

theorem dorScan_self (i : ℕ) (lens xs : List ℕ) : dorScan i lens xs xs = none := by
  induction lens generalizing i xs with
  | nil => cases xs <;> rfl
  | cons len lens ih =>
    cases xs with
    | nil => rfl
    | cons x xs =>
      rw [dorScan, dorDir_eq_none.2 rfl]
      exact ih _ _

theorem ne_of_dor (h : dimensionOrderRouting lens node dest = some (dim, dir)) : dest ≠ node := by
  rintro rfl
  rw [dimensionOrderRouting, dorScan_self] at h
  cases h

theorem dor_lt (h : dimensionOrderRouting lens node dest = some (dim, dir)) :
    dim < lens.length ∧ dir < 2 := by
  obtain ⟨-, h1, h2⟩ := dorScan_lt h
  exact ⟨h1, h2⟩

/-- **Dimension order.**  The hop after a hop is in a later dimension, or goes on in the same
direction of the same one. -/
theorem dor_neighbour (hlens : Lengths lens)
    (h : dimensionOrderRouting lens node dest = some (dim, dir)) {dim' dir' : ℕ}
    (h' : dimensionOrderRouting lens (neighbour lens node dim dir) dest = some (dim', dir')) :
    dim < dim' ∨ (dim' = dim ∧ dir' = dir) := by
  unfold dimensionOrderRouting at h h'
  rw [toDimId_neighbour hlens] at h'
  exact dorScan_step (inTorus_toDimId hlens.one_le node) (inTorus_toDimId hlens.one_le dest) h
    (by simpa using h')

end CodesSim.Torus
