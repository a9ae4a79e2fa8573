import CodesSim.Synthetic.Basic
import Mathlib.Data.Finset.Sort

/-!
# Sampling connections

The adaptive routing algorithms compare the best of `k` connections.  From a vector,
`dfdally_poll_k_connections` takes two distinct ones directly if `k` is 2, and otherwise `k`
distinct indices, each the first free one from a random index on (`pollKConnections`).  From a set,
`dfdally_get_best_from_k_connection_set` takes and erases a random one `k` times (`kConnectionSet`).

Neither compares `k` with the number of connections.  With fewer than `k` connections, but more than
one, the search for a free index goes around for ever, and the last one erased from the set is
followed by another.  Otherwise both return a sample of the right size (`kPicks_iff`).
-/

namespace CodesSim.Dally

open Synthetic (RandIntegers)

variable {C : Type*}

/-- The connections at given indices; `none` if there is none at one of them. -/
def atIndices (conns : List C) (sels : List ℕ) : Option (List C) := sels.mapM (conns[·]?)

/-- The `while` loop of `dfdally_poll_k_connections`: the first index from `i` on, around the end,
that has not been selected. -/
def firstFree (n : ℕ) (sels : Finset ℕ) : ℕ → ℕ → Option ℕ
  | 0, _ => none
  | fuel + 1, i => if i ∈ sels then firstFree n sels fuel ((i + 1) % n) else some i

/-- The `for` loop of `dfdally_poll_k_connections`, with the position in the random numbers. -/
def pollLoop (rng : RandIntegers) (n fuel : ℕ) : ℕ → ℤ → ℕ → Finset ℕ → Option (Finset ℕ)
  | 0, _, _, sels => some sels
  | k + 1, pos, lastSel, sels =>
    let randInt := rng.draw pos 0 ((n : ℤ) - 1 - sels.card)
    let attempt := ((lastSel + randInt) % 2 ^ 64 % n).toNat
    (firstFree n sels fuel attempt).bind fun i => pollLoop rng n fuel k (pos + 1) i (insert i sels)

/-- `dfdally_poll_k_connections`, with the position in the random numbers; `none` if it reads
outside of the vector, or has not returned when the loop inside has made `fuel` rounds. -/
def pollKConnections (rng : RandIntegers) (fuel : ℕ) (conns : List C) (k : ℕ) (pos : ℤ) :
    Option (List C × ℤ) :=
  match conns with
  | [] => some ([], pos)
  | [c] => some ([c], pos)
  | conns =>
    let n := conns.length
    if k = 2 then
      let sel₁ := rng.draw pos 0 (n - 1)
      let offset := rng.draw (pos + 1) 1 (n - 1)
      (atIndices conns [sel₁.toNat, ((sel₁ + offset) % n).toNat]).map fun cs => (cs, pos + 2)
    else
      (pollLoop rng n fuel k pos 0 ∅).bind fun sels =>
        (atIndices conns (sels.sort (· ≤ ·))).map fun cs => (cs, pos + k)

/-- The loop of `dfdally_get_best_from_k_connection_set`; a set is the list of its elements in
order. `none` if an element of the empty set is taken. -/
def pickLoop (rng : RandIntegers) : ℕ → ℤ → List C → Option (List C × ℤ)
  | 0, pos, _ => some ([], pos)
  | k + 1, pos, conns =>
    let offset := (rng.draw pos 0 (conns.length - 1)).toNat
    conns[offset]?.bind fun c =>
      (pickLoop rng k (pos + 1) (conns.eraseIdx offset)).map fun r => (c :: r.1, r.2)

/-- The connections that `dfdally_get_best_from_k_connection_set` compares. -/
def kConnectionSet (rng : RandIntegers) (conns : List C) (k : ℕ) (pos : ℤ) : Option (List C × ℤ) :=
  match conns with
  | [] => some ([], pos)
  | [c] => some ([c], pos)
  | conns => pickLoop rng k pos conns

/-- **A sample** of `k` connections, or of all if there are fewer: connections at different places
of the list. -/
structure Sample (k : ℕ) (conns sample : List C) : Prop where
  length : sample.length = min k conns.length
  subperm : sample.Subperm conns

variable {rng : RandIntegers} {n fuel k : ℕ} {pos : ℤ} {sels : Finset ℕ} {conns : List C}

theorem filterMap_range (conns : List C) :
    (List.range conns.length).filterMap (conns[·]?) = conns := by
  induction conns with
  | nil => rfl
  | cons c conns ih =>
    rw [List.length_cons, List.range_succ_eq_map]
    simp [List.filterMap_map, ih]

theorem atIndices_sample (conns : List C) {idx : List ℕ} (hnodup : idx.Nodup)
    (hlt : ∀ i ∈ idx, i < conns.length) :
    ∃ cs, atIndices conns idx = some cs ∧ cs.length = idx.length ∧ cs.Subperm conns := by
  have hmap : ∀ idx : List ℕ, (∀ i ∈ idx, i < conns.length) →
      atIndices conns idx = some (idx.filterMap (conns[·]?)) ∧
        (idx.filterMap (conns[·]?)).length = idx.length := by
    intro idx hlt
    induction idx with
    | nil => exact ⟨rfl, rfl⟩
    | cons i idx ih =>
      obtain ⟨ih, hlen⟩ := ih fun j hj => hlt j (List.mem_cons_of_mem _ hj)
      have hi := List.getElem?_eq_getElem (hlt i List.mem_cons_self)
      rw [atIndices] at ih
      rw [atIndices, List.mapM_cons, ih, List.filterMap_cons, hi]
      exact ⟨rfl, by rw [List.length_cons, List.length_cons, hlen]⟩
  obtain ⟨heq, hlen⟩ := hmap idx hlt
  refine ⟨_, heq, hlen, ?_⟩
  obtain ⟨l, hperm, hsub⟩ := List.subperm_of_subset hnodup fun i hi => List.mem_range.2 (hlt i hi)
  have hsub' := hsub.filterMap (conns[·]?)
  rw [filterMap_range] at hsub'
  exact ⟨_, hperm.filterMap _, hsub'⟩

/-! ### The vector -/

theorem attempt_lt (hn : 0 < n) (x : ℤ) : (x % n).toNat < n := by
  have := Int.emod_lt_of_pos x (Int.natCast_pos.2 hn)
  omega

/-- The index found has not been selected. -/
theorem firstFree_spec {i j : ℕ} (hi : i < n) (h : firstFree n sels fuel i = some j) :
    j ∉ sels ∧ j < n := by
  induction fuel generalizing i with
  | zero => cases h
  | succ fuel ih =>
    rw [firstFree] at h
    split_ifs at h with hmem
    · exact ih (Nat.mod_lt _ (by omega)) h
    · cases h
      exact ⟨hmem, hi⟩

/-- An index is found if there is one not too far away. -/
theorem firstFree_isSome {i d : ℕ} (hd : (i + d) % n ∉ sels) (hi : i < n) (hfuel : d < fuel) :
    ∃ j, firstFree n sels fuel i = some j := by
  induction d generalizing i fuel with
  | zero =>
    obtain ⟨fuel, rfl⟩ := Nat.exists_eq_add_of_lt hfuel
    rw [Nat.add_zero, Nat.mod_eq_of_lt hi] at hd
    exact ⟨i, by rw [firstFree, if_neg hd]⟩
  | succ d ih =>
    obtain ⟨fuel, rfl⟩ : ∃ f, fuel = f + 1 := ⟨fuel - 1, by omega⟩
    rw [firstFree]
    split_ifs with hmem
    · refine ih ?_ (Nat.mod_lt _ (by omega)) (by omega)
      rwa [Nat.mod_add_mod, Nat.add_assoc, Nat.add_comm 1]
    · exact ⟨i, rfl⟩

theorem firstFree_of_card {i : ℕ} (hi : i < n) (hcard : sels.card < n) (hfuel : n ≤ fuel) :
    ∃ j, firstFree n sels fuel i = some j := by
  obtain ⟨j, hj, hfree⟩ : ∃ j ∈ Finset.range n, j ∉ sels := by
    by_contra hall
    push Not at hall
    have := Finset.card_le_card hall
    rw [Finset.card_range] at this
    omega
  have hj := Finset.mem_range.1 hj
  refine firstFree_isSome (d := (j + (n - i)) % n) ?_ hi ((Nat.mod_lt _ (by omega)).trans_le hfuel)
  rwa [Nat.add_mod_mod, show i + (j + (n - i)) = j + n by omega, Nat.add_mod_right,
    Nat.mod_eq_of_lt hj]

theorem pollLoop_spec {lastSel : ℕ} {sels' : Finset ℕ} (hn : 0 < n) (hlt : ∀ i ∈ sels, i < n)
    (h : pollLoop rng n fuel k pos lastSel sels = some sels') :
    (∀ i ∈ sels', i < n) ∧ sels'.card = sels.card + k := by
  induction k generalizing pos lastSel sels with
  | zero =>
    cases h
    exact ⟨hlt, rfl⟩
  | succ k ih =>
    obtain ⟨i, hi, hrest⟩ := Option.bind_eq_some_iff.1 h
    obtain ⟨hfree, hin⟩ := firstFree_spec (attempt_lt hn _) hi
    obtain ⟨hlt', hcard⟩ := ih (fun j hj => by
      obtain rfl | hj := Finset.mem_insert.1 hj
      · exact hin
      · exact hlt j hj) hrest
    rw [Finset.card_insert_of_notMem hfree] at hcard
    exact ⟨hlt', by omega⟩

theorem pollLoop_isSome (rng : RandIntegers) (pos : ℤ) (lastSel : ℕ) (hn : 0 < n)
    (hroom : sels.card + k ≤ n)
    (hlt : ∀ i ∈ sels, i < n) (hfuel : n ≤ fuel) :
    ∃ sels', pollLoop rng n fuel k pos lastSel sels = some sels' := by
  induction k generalizing pos lastSel sels with
  | zero => exact ⟨sels, rfl⟩
  | succ k ih =>
    have hlast := attempt_lt hn ((lastSel + rng.draw pos 0 ((n : ℤ) - 1 - sels.card)) % 2 ^ 64)
    obtain ⟨i, hi⟩ := firstFree_of_card hlast (show sels.card < n by omega) hfuel
    obtain ⟨hfree, hin⟩ := firstFree_spec hlast hi
    have hcard := Finset.card_insert_of_notMem hfree
    obtain ⟨sels', hrest⟩ := ih (pos + 1) i (show (insert i sels).card + k ≤ n by omega)
      fun j hj => by
      obtain rfl | hj := Finset.mem_insert.1 hj
      · exact hin
      · exact hlt j hj
    exact ⟨sels', Option.bind_eq_some_iff.2 ⟨i, hi, hrest⟩⟩

theorem firstFree_mono {fuel' i j : ℕ} (h : firstFree n sels fuel i = some j)
    (hle : fuel ≤ fuel') : firstFree n sels fuel' i = some j := by
  induction fuel generalizing fuel' i with
  | zero => cases h
  | succ fuel ih =>
    obtain ⟨fuel', rfl⟩ : ∃ f, fuel' = f + 1 := ⟨fuel' - 1, by omega⟩
    rw [firstFree] at h ⊢
    split_ifs at h ⊢ with hmem
    · exact ih h (by omega)
    · exact h

/-- More rounds change nothing. -/
theorem pollLoop_mono {fuel' lastSel : ℕ} {sels' : Finset ℕ}
    (h : pollLoop rng n fuel k pos lastSel sels = some sels') (hle : fuel ≤ fuel') :
    pollLoop rng n fuel' k pos lastSel sels = some sels' := by
  induction k generalizing pos lastSel sels with
  | zero => exact h
  | succ k ih =>
    obtain ⟨i, hi, hrest⟩ := Option.bind_eq_some_iff.1 h
    exact Option.bind_eq_some_iff.2 ⟨i, firstFree_mono hi hle, ih hrest⟩

theorem pollKConnections_eq (hconns : 1 < conns.length) : pollKConnections rng fuel conns k pos =
    if k = 2 then
      (atIndices conns [(rng.draw pos 0 (conns.length - 1)).toNat,
        ((rng.draw pos 0 (conns.length - 1) + rng.draw (pos + 1) 1 (conns.length - 1)) %
          conns.length).toNat]).map fun cs => (cs, pos + 2)
    else
      (pollLoop rng conns.length fuel k pos 0 ∅).bind fun sels =>
        (atIndices conns (sels.sort (· ≤ ·))).map fun cs => (cs, pos + k) := by
  match conns, hconns with
  | c :: c' :: conns, _ => rfl

theorem pollTwo_sample (rng : RandIntegers) (pos : ℤ) (hconns : 1 < conns.length) :
    ∃ cs, (∀ fuel, pollKConnections rng fuel conns 2 pos = some (cs, pos + 2)) ∧
      Sample 2 conns cs := by
  have hlow := rng.lower pos 0 (conns.length - 1) (by omega)
  have hhigh := rng.upper pos 0 (conns.length - 1) (by omega)
  have hlow' := rng.lower (pos + 1) 1 (conns.length - 1) (by omega)
  have hhigh' := rng.upper (pos + 1) 1 (conns.length - 1) (by omega)
  simp only [pollKConnections_eq hconns, ↓reduceIte]
  generalize rng.draw pos 0 (conns.length - 1) = a at *
  generalize rng.draw (pos + 1) 1 (conns.length - 1) = b at *
  -- the second index is not around the whole list
  have hb : (a + b < conns.length ∧ (a + b) % (conns.length : ℤ) = a + b) ∨
      (conns.length ≤ a + b ∧ (a + b) % (conns.length : ℤ) = a + b - conns.length) := by
    rcases lt_or_ge (a + b) conns.length with hlt | hge
    · exact .inl ⟨hlt, Int.emod_eq_of_lt (by omega) hlt⟩
    · rw [← Int.sub_emod_right, Int.emod_eq_of_lt (by omega) (by omega)]
      exact .inr ⟨hge, rfl⟩
  have hnodup : [a.toNat, ((a + b) % (conns.length : ℤ)).toNat].Nodup := by
    rw [List.nodup_cons, List.mem_singleton]
    exact ⟨by omega, List.nodup_singleton _⟩
  obtain ⟨cs, hcs, hlen, hsub⟩ := atIndices_sample conns hnodup fun i hi => by
    rw [List.mem_cons, List.mem_singleton] at hi
    omega
  refine ⟨cs, fun _ => by rw [hcs]; rfl, ⟨?_, hsub⟩⟩
  rw [hlen, Nat.min_eq_left hconns]
  rfl

theorem pollMany_sample (rng : RandIntegers) (pos : ℤ) (hk : k ≠ 2) (hconns : 1 < conns.length)
    (hle : k ≤ conns.length) :
    ∃ cs, (∀ fuel ≥ conns.length, pollKConnections rng fuel conns k pos = some (cs, pos + k)) ∧
      Sample k conns cs := by
  have hroom : (∅ : Finset ℕ).card + k ≤ conns.length := by simpa using hle
  obtain ⟨sels, hsels⟩ := pollLoop_isSome rng pos 0 (by omega) hroom (by simp) le_rfl
  obtain ⟨hlt, hcard⟩ := pollLoop_spec (by omega) (by simp) hsels
  obtain ⟨cs, hcs, hlen, hsub⟩ := atIndices_sample conns (Finset.sort_nodup sels (· ≤ ·))
    fun i hi => hlt i ((Finset.mem_sort _).1 hi)
  refine ⟨cs, fun fuel hfuel => ?_, ⟨?_, hsub⟩⟩
  · rw [pollKConnections_eq hconns, if_neg hk, pollLoop_mono hsels hfuel, Option.bind_some, hcs]
    rfl
  · rw [hlen, Finset.length_sort, hcard, Finset.card_empty, Nat.zero_add, Nat.min_eq_left hle]

theorem pollMany_le {r : List C × ℤ} (hk : k ≠ 2) (hconns : 1 < conns.length)
    (h : pollKConnections rng fuel conns k pos = some r) : k ≤ conns.length := by
  rw [pollKConnections_eq hconns, if_neg hk] at h
  obtain ⟨sels, hsels, -⟩ := Option.bind_eq_some_iff.1 h
  obtain ⟨hlt, hcard⟩ := pollLoop_spec (by omega) (by simp) hsels
  have := Finset.card_le_card fun i hi => Finset.mem_range.2 (hlt i hi)
  rw [Finset.card_range, hcard, Finset.card_empty, Nat.zero_add] at this
  exact this

/-! ### The set -/

theorem pickLoop_spec (rng : RandIntegers) (pos : ℤ) (hle : k ≤ conns.length) :
    ∃ cs, pickLoop rng k pos conns = some (cs, pos + k) ∧ cs.length = k ∧ cs.Subperm conns := by
  induction k generalizing pos conns with
  | zero => exact ⟨[], by simp [pickLoop], rfl, List.nil_subperm⟩
  | succ k ih =>
    have hlow := rng.lower pos 0 (conns.length - 1) (by omega)
    have hhigh := rng.upper pos 0 (conns.length - 1) (by omega)
    have hlt : (rng.draw pos 0 (conns.length - 1)).toNat < conns.length := by omega
    have hlen := List.length_eraseIdx_of_lt hlt
    obtain ⟨cs, hcs, hcount, hsub⟩ := ih (pos + 1) (show k ≤ (conns.eraseIdx _).length from by
      rw [hlen]
      omega)
    refine ⟨conns.get ⟨_, hlt⟩ :: cs, ?_, by rw [List.length_cons, hcount], ?_⟩
    · rw [pickLoop, List.getElem?_eq_getElem hlt, Option.bind_some, hcs]
      simp only [Option.map_some, Option.some.injEq, Prod.mk.injEq]
      exact ⟨rfl, by push_cast; omega⟩
    · exact ((List.subperm_cons _).2 hsub).trans (List.getElem_cons_eraseIdx_perm hlt).subperm

theorem pickLoop_le {r : List C × ℤ} (h : pickLoop rng k pos conns = some r) :
    k ≤ conns.length := by
  induction k generalizing pos conns r with
  | zero => exact Nat.zero_le _
  | succ k ih =>
    obtain ⟨c, hc, hrest⟩ := Option.bind_eq_some_iff.1 h
    obtain ⟨r', hr', -⟩ := Option.map_eq_some_iff.1 hrest
    obtain ⟨hlt, -⟩ := List.getElem?_eq_some_iff.1 hc
    have := ih hr'
    rw [List.length_eraseIdx_of_lt hlt] at this
    omega

theorem kConnectionSet_eq (hconns : 1 < conns.length) :
    kConnectionSet rng conns k pos = pickLoop rng k pos conns := by
  match conns, hconns with
  | c :: c' :: conns, _ => rfl

/-! ### The samples -/

/-- A loop ends, and what it returns is a sample. -/
def PicksSample (k : ℕ) (conns : List C) (poll : ℕ → Option (List C × ℤ)) : Prop :=
  ∃ r, (∃ enough, ∀ fuel ≥ enough, poll fuel = some r) ∧ Sample k conns r.1

/-- There are enough connections, or no choice. -/
def EnoughConnections (k : ℕ) (conns : List C) : Prop := conns.length ≤ 1 ∨ k ≤ conns.length

theorem sample_self (hk : 1 ≤ k) (hconns : conns.length ≤ 1) : Sample k conns conns :=
  ⟨by omega, .refl _⟩

/-- **When `k` connections are sampled.** -/
theorem kPicks_iff (rng : RandIntegers) (conns : List C) (pos : ℤ) {k : ℕ} (hk : 1 ≤ k) :
    (PicksSample k conns (fun fuel => pollKConnections rng fuel conns k pos) ↔
      EnoughConnections k conns) ∧
    (PicksSample k conns (fun _ => kConnectionSet rng conns k pos) ↔
      EnoughConnections k conns) := by
  rcases Nat.lt_or_ge 1 conns.length with hconns | hfew
  · have henough : EnoughConnections k conns ↔ k ≤ conns.length := or_iff_right (by omega)
    rw [henough]
    refine ⟨⟨?_, fun hle => ?_⟩, ⟨?_, fun hle => ?_⟩⟩
    · rintro ⟨r, ⟨enough, h⟩, -⟩
      rcases eq_or_ne k 2 with rfl | hne
      · exact hconns
      · exact pollMany_le hne hconns (h enough le_rfl)
    · rcases eq_or_ne k 2 with rfl | hne
      · obtain ⟨cs, hcs, hsample⟩ := pollTwo_sample rng pos hconns
        exact ⟨(cs, pos + 2), ⟨0, fun fuel _ => hcs fuel⟩, hsample⟩
      · obtain ⟨cs, hcs, hsample⟩ := pollMany_sample rng pos hne hconns hle
        exact ⟨_, ⟨conns.length, hcs⟩, hsample⟩
    · rintro ⟨r, ⟨enough, h⟩, -⟩
      have hr := h enough le_rfl
      rw [kConnectionSet_eq hconns] at hr
      exact pickLoop_le hr
    · obtain ⟨cs, hcs, hlen, hsub⟩ := pickLoop_spec rng pos hle
      refine ⟨(cs, pos + k), ⟨0, fun _ _ => ?_⟩, ⟨?_, hsub⟩⟩
      · rw [kConnectionSet_eq hconns, hcs]
      · rw [hlen, Nat.min_eq_left hle]
  · have hall : ∀ fuel, pollKConnections rng fuel conns k pos = some (conns, pos) ∧
        kConnectionSet rng conns k pos = some (conns, pos) := by
      match conns, hfew with
      | [], _ => exact fun _ => ⟨rfl, rfl⟩
      | [c], _ => exact fun _ => ⟨rfl, rfl⟩
    exact ⟨iff_of_true ⟨_, ⟨0, fun fuel _ => (hall fuel).1⟩, sample_self hk hfew⟩ (.inl hfew),
      iff_of_true ⟨_, ⟨0, fun fuel _ => (hall fuel).2⟩, sample_self hk hfew⟩ (.inl hfew)⟩

/-- Random numbers that go around every range. -/
def roundRobin : RandIntegers where
  draw i low high := low + i % (high - low + 1)
  lower i low high h := by
    have := Int.emod_nonneg i (b := high - low + 1) (by omega)
    omega
  upper i low high h := by
    have := Int.emod_lt_of_pos i (b := high - low + 1) (by omega)
    omega

/-- Every value of a range comes again and again. -/
def Fair (rng : RandIntegers) : Prop :=
  ∀ low high v, low ≤ v → v ≤ high → ∀ i : ℤ, 0 ≤ i → ∃ j ≥ i, rng.draw j low high = v

theorem roundRobin_fair : Fair roundRobin := by
  intro low high v hlow hhigh i hi
  refine ⟨(v - low) + (high - low + 1) * i, ?_, ?_⟩
  · have := Int.mul_le_mul_of_nonneg_right (show 1 ≤ high - low + 1 by omega) hi
    omega
  · have hmod : (v - low + (high - low + 1) * i) % (high - low + 1) = v - low := by
      rw [Int.add_mul_emod_self_left, Int.emod_eq_of_lt (by omega) (by omega)]
    simp only [roundRobin, hmod]
    omega

/-- Three of five connections. -/
theorem kPicks_iff_threeOfFive : 1 ≤ 3 ∧
    (PicksSample 3 [0, 1, 2, 3, 4]
      (fun fuel => pollKConnections roundRobin fuel [0, 1, 2, 3, 4] 3 0) ↔
      EnoughConnections 3 [0, 1, 2, 3, 4]) ∧
    (PicksSample 3 [0, 1, 2, 3, 4] (fun _ => kConnectionSet roundRobin [0, 1, 2, 3, 4] 3 0) ↔
      EnoughConnections 3 [0, 1, 2, 3, 4]) :=
  ⟨by decide, kPicks_iff roundRobin [0, 1, 2, 3, 4] 0 (by decide)⟩

/-- Three of two connections: neither loop returns. -/
theorem threeOfTwo_not_sampled : Fair roundRobin ∧
    ¬ PicksSample 3 [0, 1] (fun fuel => pollKConnections roundRobin fuel [0, 1] 3 0) ∧
    ¬ PicksSample 3 [0, 1] (fun _ => kConnectionSet roundRobin [0, 1] 3 0) := by
  refine ⟨roundRobin_fair, ?_, ?_⟩
  · rintro ⟨r, ⟨enough, h⟩, -⟩
    exact absurd (pollMany_le (by decide) (by decide) (h enough le_rfl)) (by decide)
  · rintro ⟨r, ⟨enough, h⟩, -⟩
    exact absurd (pickLoop_le (h enough le_rfl)) (by decide)

end CodesSim.Dally
