import Mathlib.Algebra.BigOperators.Ring.Finset

/-!
# Tallies

A tally is an ordered map from keys to numbers that forgets a key when its number becomes zero, as
programs keep one with `m[k] += n` and `m[k] -= n; if (m.at(k) == 0) m.erase(k)`.  Two tallies with
the same numbers are the same map (`Tally.ext`), so what is added and taken away again leaves no
trace.  `Tally.Of` says that a tally counts the weights of the elements of a list by key, and
`Tally.Of₂` that a tally of tallies does so by two keys.
-/

namespace CodesSim.Tally

set_option linter.unusedSectionVars false

variable {κ : Type*} [Ord κ] [Std.TransOrd κ] [Std.LawfulEqOrd κ] [DecidableEq κ]

/-- The number of a key: 0 if the key is not there. -/
def count (m : Std.ExtTreeMap κ ℕ) (k : κ) : ℕ := m[k]?.getD 0

/-- `m[k] += n`. -/
def add (m : Std.ExtTreeMap κ ℕ) (k : κ) (n : ℕ) : Std.ExtTreeMap κ ℕ := m.insert k (count m k + n)

/-- `m[k] -= n`, and the key is erased at zero. -/
def sub (m : Std.ExtTreeMap κ ℕ) (k : κ) (n : ℕ) : Std.ExtTreeMap κ ℕ :=
  if count m k - n = 0 then m.erase k else m.insert k (count m k - n)

/-- No key has the number zero. -/
def NoZero (m : Std.ExtTreeMap κ ℕ) : Prop := ∀ k : κ, m[k]? ≠ some 0

/-- The sum of all numbers. -/
def total (m : Std.ExtTreeMap κ ℕ) : ℕ := (m.toList.map Prod.snd).sum

variable {m m' : Std.ExtTreeMap κ ℕ} {k k' : κ} {n : ℕ}

variable {β : Type*}

theorem getElem?_insert (m : Std.ExtTreeMap κ β) (k k' : κ) (v : β) :
    (m.insert k v)[k']? = if k = k' then some v else m[k']? := by
  rw [Std.ExtTreeMap.getElem?_insert]
  simp only [Std.LawfulEqOrd.compare_eq_iff_eq]

theorem getElem?_erase (m : Std.ExtTreeMap κ β) (k k' : κ) :
    (m.erase k)[k']? = if k = k' then none else m[k']? := by
  rw [Std.ExtTreeMap.getElem?_erase]
  simp only [Std.LawfulEqOrd.compare_eq_iff_eq]

@[simp] theorem count_empty : count (∅ : Std.ExtTreeMap κ ℕ) k = 0 := by simp [count]

theorem count_add : count (add m k n) k' = count m k' + if k = k' then n else 0 := by
  rw [count, add, getElem?_insert]
  split_ifs with h
  · rw [h]
    rfl
  · rfl

theorem count_sub : count (sub m k n) k' = count m k' - if k = k' then n else 0 := by
  rw [count, sub]
  split_ifs with h0 h h
  · rw [getElem?_erase, if_pos h, ← h, h0]
    rfl
  · rw [getElem?_erase, if_neg h]
    rfl
  · rw [getElem?_insert, if_pos h, h]
    rfl
  · rw [getElem?_insert, if_neg h]
    rfl

theorem noZero_empty : NoZero (∅ : Std.ExtTreeMap κ ℕ) := fun k => by simp

theorem NoZero.add (h : NoZero m) (hn : 0 < n) : NoZero (add m k n) := by
  intro k'
  rw [Tally.add, getElem?_insert]
  split_ifs
  · intro h0
    have := Option.some.inj h0
    omega
  · exact h k'

theorem NoZero.sub (h : NoZero m) : NoZero (sub m k n) := by
  intro k'
  rw [Tally.sub]
  split_ifs with h0
  · rw [getElem?_erase]
    split_ifs
    · exact nofun
    · exact h k'
  · rw [getElem?_insert]
    split_ifs
    · exact fun he => h0 (Option.some.inj he)
    · exact h k'

theorem NoZero.getElem? (h : NoZero m) (k : κ) :
    m[k]? = if count m k = 0 then none else some (count m k) := by
  rw [count]
  cases hk : m[k]? with
  | none => rfl
  | some v =>
    have hv : v ≠ 0 := fun h0 => h k (by rw [hk, h0])
    simp [hv]

/-- **Tallies with the same numbers are the same.** -/
theorem ext (h : NoZero m) (h' : NoZero m') (hcount : ∀ k, count m k = count m' k) : m = m' := by
  refine Std.ExtTreeMap.ext_getElem? fun k => ?_
  rw [h.getElem?, h'.getElem?, hcount]

theorem sub_add_cancel (h : NoZero m) (hn : 0 < n) : sub (add m k n) k n = m := by
  refine ext (h.add hn).sub h fun k' => ?_
  rw [count_sub, count_add]
  omega

/-- Add one for every key of a list. -/
def addAll (m : Std.ExtTreeMap κ ℕ) (l : List κ) : Std.ExtTreeMap κ ℕ :=
  l.foldl (fun m k => add m k 1) m

/-- Take one away for every key of a list. -/
def subAll (m : Std.ExtTreeMap κ ℕ) (l : List κ) : Std.ExtTreeMap κ ℕ :=
  l.foldl (fun m k => sub m k 1) m

theorem count_addAll (l : List κ) (k : κ) : count (addAll m l) k = count m k + l.count k := by
  induction l generalizing m with
  | nil => rfl
  | cons x l ih =>
    rw [addAll, List.foldl_cons, ← addAll, ih, count_add, List.count_cons]
    by_cases hx : x = k <;> simp [hx]
    omega

theorem count_subAll (l : List κ) (k : κ) : count (subAll m l) k = count m k - l.count k := by
  induction l generalizing m with
  | nil => rfl
  | cons x l ih =>
    rw [subAll, List.foldl_cons, ← subAll, ih, count_sub, List.count_cons]
    by_cases hx : x = k <;> simp [hx]
    omega

theorem NoZero.addAll (h : NoZero m) (l : List κ) : NoZero (addAll m l) := by
  induction l generalizing m with
  | nil => exact h
  | cons x l ih => exact ih (h.add Nat.one_pos)

theorem NoZero.subAll (h : NoZero m) (l : List κ) : NoZero (subAll m l) := by
  induction l generalizing m with
  | nil => exact h
  | cons x l ih => exact ih h.sub

theorem subAll_addAll (h : NoZero m) (l : List κ) : subAll (addAll m l) l = m := by
  refine ext ((h.addAll l).subAll l) h fun k => ?_
  rw [count_subAll, count_addAll]
  omega

theorem addAll_subAll (h : NoZero m) {l : List κ} (hl : ∀ k, l.count k ≤ count m k) :
    addAll (subAll m l) l = m := by
  refine ext ((h.subAll l).addAll l) h fun k => ?_
  rw [count_addAll, count_subAll]
  exact Nat.sub_add_cancel (hl k)

/-! ### Sets -/

section Sets

variable {s : Std.ExtTreeSet κ}

theorem mem_insert : k' ∈ s.insert k ↔ k' = k ∨ k' ∈ s := by
  rw [Std.ExtTreeSet.mem_insert, Std.LawfulEqOrd.compare_eq_iff_eq, eq_comm]

theorem mem_erase : k' ∈ s.erase k ↔ k' ≠ k ∧ k' ∈ s := by
  rw [Std.ExtTreeSet.mem_erase, Ne, Std.LawfulEqOrd.compare_eq_iff_eq, eq_comm]

def insertAll (s : Std.ExtTreeSet κ) (l : List κ) : Std.ExtTreeSet κ := l.foldl (·.insert ·) s

def eraseAll (s : Std.ExtTreeSet κ) (l : List κ) : Std.ExtTreeSet κ := l.foldl (·.erase ·) s

theorem mem_insertAll (l : List κ) (k : κ) : k ∈ insertAll s l ↔ k ∈ s ∨ k ∈ l := by
  induction l generalizing s with
  | nil => simp [insertAll]
  | cons x l ih =>
    rw [insertAll, List.foldl_cons, ← insertAll, ih, mem_insert, List.mem_cons]
    tauto

theorem mem_eraseAll (l : List κ) (k : κ) : k ∈ eraseAll s l ↔ k ∈ s ∧ k ∉ l := by
  induction l generalizing s with
  | nil => simp [eraseAll]
  | cons x l ih =>
    rw [eraseAll, List.foldl_cons, ← eraseAll, ih, mem_erase, List.mem_cons]
    tauto

theorem eraseAll_insertAll {l : List κ} (h : ∀ k ∈ l, k ∉ s) : eraseAll (insertAll s l) l = s := by
  refine Std.ExtTreeSet.ext_mem fun k => ?_
  rw [mem_eraseAll, mem_insertAll]
  constructor
  · rintro ⟨hk | hk, hnot⟩
    · exact hk
    · exact absurd hk hnot
  · exact fun hk => ⟨.inl hk, fun hl => h k hl hk⟩

theorem insertAll_eraseAll {l : List κ} (h : ∀ k ∈ l, k ∈ s) : insertAll (eraseAll s l) l = s := by
  refine Std.ExtTreeSet.ext_mem fun k => ?_
  rw [mem_insertAll, mem_eraseAll]
  constructor
  · rintro (hk | hk)
    · exact hk.1
    · exact h k hk
  · intro hk
    by_cases hl : k ∈ l
    · exact .inr hl
    · exact .inl ⟨hk, hl⟩

theorem nodup_toList (s : Std.ExtTreeSet κ) : s.toList.Nodup := by
  refine Std.ExtTreeSet.distinct_toList.imp fun {a b} hab heq => hab ?_
  exact Std.LawfulEqOrd.compare_eq_iff_eq.2 heq

theorem eraseAll_toList (s : Std.ExtTreeSet κ) : eraseAll s s.toList = ∅ := by
  refine Std.ExtTreeSet.ext_mem fun k => ?_
  rw [mem_eraseAll, Std.ExtTreeSet.mem_toList]
  exact iff_of_false (fun h => h.2 h.1) Std.ExtTreeSet.not_mem_empty

end Sets

/-! ### Tallies of lists -/

variable {α : Type*} {key : α → κ} {weight : α → ℕ} {x : α} {l l' : List α}

/-- The weights of the elements with a key. -/
def weigh (key : α → κ) (weight : α → ℕ) (l : List α) (k : κ) : ℕ :=
  (l.map fun x => if key x = k then weight x else 0).sum

@[simp] theorem weigh_cons :
    weigh key weight (x :: l) k = (if key x = k then weight x else 0) + weigh key weight l k := by
  rw [weigh, List.map_cons, List.sum_cons, weigh]

theorem weigh_perm (h : l.Perm l') : weigh key weight l k = weigh key weight l' k :=
  (h.map _).sum_eq

theorem sum_filter (key : α → κ) (weight : α → ℕ) (l : List α) (k : κ) :
    ((l.filter fun x => key x = k).map weight).sum = weigh key weight l k := by
  induction l with
  | nil => rfl
  | cons x l ih =>
    rw [weigh_cons, ← ih]
    by_cases hx : key x = k
    · rw [List.filter_cons_of_pos (by simp [hx]), List.map_cons, List.sum_cons, if_pos hx]
    · rw [List.filter_cons_of_neg (by simp [hx]), if_neg hx, Nat.zero_add]

theorem exists_of_weigh (h : weigh key weight l k ≠ 0) : ∃ x ∈ l, key x = k := by
  by_contra hnot
  refine h (List.sum_eq_zero fun y hy => ?_)
  obtain ⟨x, hx, rfl⟩ := List.mem_map.1 hy
  exact if_neg fun he => hnot ⟨x, hx, he⟩

theorem sum_weigh (key : α → κ) (weight : α → ℕ) {A : Finset κ} (hA : ∀ x ∈ l, key x ∈ A) :
    ∑ k ∈ A, weigh key weight l k = (l.map weight).sum := by
  induction l with
  | nil => simp [weigh]
  | cons x l ih =>
    have hx : key x ∈ A := hA x List.mem_cons_self
    simp only [weigh_cons, Finset.sum_add_distrib, Finset.sum_ite_eq, hx, if_true,
      ih fun y hy => hA y (List.mem_cons_of_mem _ hy), List.map_cons, List.sum_cons]

/-- Two keys have no more than everything. -/
theorem weigh_add_weigh_le (key : α → κ) (weight : α → ℕ) (l : List α) (h : k ≠ k') :
    weigh key weight l k + weigh key weight l k' ≤ (l.map weight).sum := by
  induction l with
  | nil => exact Nat.le_refl 0
  | cons x l ih =>
    rw [weigh_cons, weigh_cons, List.map_cons, List.sum_cons]
    by_cases hk : key x = k
    · have hk' : ¬ key x = k' := fun hk' => h (hk.symm.trans hk')
      rw [if_pos hk, if_neg hk']
      omega
    · rw [if_neg hk]
      split_ifs <;> omega

/-- A tally counts a list. -/
structure Of (key : α → κ) (weight : α → ℕ) (l : List α) (m : Std.ExtTreeMap κ ℕ) : Prop where
  noZero : NoZero m
  count : ∀ k, Tally.count m k = weigh key weight l k

theorem Of.nil : Of key weight [] ∅ := ⟨noZero_empty, fun k => by simp [weigh]⟩

theorem Of.add (h : Of key weight l m) (hx : 0 < weight x) :
    Of key weight (x :: l) (add m (key x) (weight x)) where
  noZero := h.noZero.add hx
  count k := by
    rw [count_add, h.count, weigh_cons]
    omega

theorem Of.sub (h : Of key weight (x :: l) m) : Of key weight l (sub m (key x) (weight x)) where
  noZero := h.noZero.sub
  count k := by
    rw [count_sub, h.count, weigh_cons]
    omega

theorem Of.perm (h : Of key weight l m) (hl : l.Perm l') : Of key weight l' m where
  noZero := h.noZero
  count k := by rw [h.count, weigh_perm hl]

/-- **The tally of a list is unique.** -/
theorem Of.unique (h : Of key weight l m) (h' : Of key weight l m') : m = m' :=
  ext h.noZero h'.noZero fun k => by rw [h.count, h'.count]

theorem Of.le_count (h : Of key weight l m) (hx : x ∈ l) : weight x ≤ Tally.count m (key x) := by
  rw [h.count]
  obtain ⟨l₁, l₂, rfl⟩ := List.append_of_mem hx
  rw [weigh_perm List.perm_middle, weigh_cons, if_pos rfl]
  omega

theorem total_eq (f : β → ℕ) (m : Std.ExtTreeMap κ β) {A : Finset κ}
    (hA : ∀ k v, m[k]? = some v → k ∈ A) :
    (m.toList.map fun e => f e.2).sum = ∑ k ∈ A, (m[k]?.map f).getD 0 := by
  have hsub : m.keys.toFinset ⊆ A := by
    intro k hk
    rw [List.mem_toFinset, ← Std.ExtTreeMap.map_fst_toList_eq_keys, List.mem_map] at hk
    obtain ⟨⟨k, v⟩, he, rfl⟩ := hk
    exact hA k v (Std.ExtTreeMap.mem_toList_iff_getElem?_eq_some.1 he)
  have hout : ∀ k ∈ A, k ∉ m.keys.toFinset → (m[k]?.map f).getD 0 = 0 := by
    intro k _ hk
    rw [List.mem_toFinset, Std.ExtTreeMap.mem_keys] at hk
    rw [Std.ExtTreeMap.getElem?_eq_none hk]
    rfl
  rw [← Finset.sum_subset hsub hout, List.sum_toFinset _ Std.ExtTreeMap.nodup_keys,
    ← Std.ExtTreeMap.map_fst_toList_eq_keys, List.map_map]
  refine congrArg List.sum (List.map_congr_left fun e he => ?_)
  obtain ⟨k, v⟩ := e
  rw [Function.comp_apply, Std.ExtTreeMap.mem_toList_iff_getElem?_eq_some.1 he]
  rfl

/-- **The tally of a list adds up to the weight of the list.** -/
theorem Of.total (h : Of key weight l m) : total m = (l.map weight).sum := by
  have hA : ∀ k v, m[k]? = some v → k ∈ (l.map key).toFinset := by
    intro k v hk
    by_contra hnot
    have hzero : weigh key weight l k = 0 := by
      by_contra hne
      obtain ⟨x, hx, rfl⟩ := exists_of_weigh hne
      exact hnot (List.mem_toFinset.2 (List.mem_map_of_mem hx))
    have hcount := h.count k
    rw [hzero, Tally.count, hk] at hcount
    have hv : v = 0 := hcount
    exact h.noZero k (by rw [hk, hv])
  have hsum := total_eq id m hA
  rw [Tally.total, show (m.toList.map Prod.snd) = m.toList.map fun e => id e.2 from rfl, hsum,
    ← sum_weigh key weight fun x hx => List.mem_toFinset.2 (List.mem_map_of_mem hx)]
  refine Finset.sum_congr rfl fun k _ => ?_
  rw [← h.count, Option.map_id]
  rfl

/-! ### Tallies of tallies -/

variable {ι : Type*} [Ord ι] [Std.TransOrd ι] [Std.LawfulEqOrd ι] [DecidableEq ι]
  {outer : α → ι} {t t' : Std.ExtTreeMap ι (Std.ExtTreeMap κ ℕ)} {a b : ι}

/-- The tally of a key; empty if the key is not there. -/
def inner (t : Std.ExtTreeMap ι (Std.ExtTreeMap κ ℕ)) (a : ι) : Std.ExtTreeMap κ ℕ := t[a]?.getD ∅

/-- `t[a][k] += n`. -/
def add₂ (t : Std.ExtTreeMap ι (Std.ExtTreeMap κ ℕ)) (a : ι) (k : κ) (n : ℕ) :
    Std.ExtTreeMap ι (Std.ExtTreeMap κ ℕ) := t.insert a (add (inner t a) k n)

/-- `t[a][k] -= n`; the key is erased at zero, and a tally that has become empty too. -/
def sub₂ (t : Std.ExtTreeMap ι (Std.ExtTreeMap κ ℕ)) (a : ι) (k : κ) (n : ℕ) :
    Std.ExtTreeMap ι (Std.ExtTreeMap κ ℕ) :=
  let rest := sub (inner t a) k n
  if rest.isEmpty then t.erase a else t.insert a rest

theorem inner_insert : inner (t.insert a m) b = if a = b then m else inner t b := by
  rw [inner, getElem?_insert]
  split_ifs <;> rfl

theorem inner_sub₂ : inner (sub₂ t a k n) b = if a = b then sub (inner t a) k n else inner t b := by
  rw [sub₂]
  split_ifs with he h h
  · rw [inner, getElem?_erase, if_pos h]
    exact (Std.ExtTreeMap.isEmpty_iff.1 he).symm
  · rw [inner, getElem?_erase, if_neg h]
    rfl
  · rw [inner_insert, if_pos h]
  · rw [inner_insert, if_neg h]

/-- A tally of tallies counts a list. -/
structure Of₂ (outer : α → ι) (key : α → κ) (weight : α → ℕ) (l : List α)
    (t : Std.ExtTreeMap ι (Std.ExtTreeMap κ ℕ)) : Prop where
  noEmpty : ∀ a : ι, t[a]? ≠ some ∅
  inner : ∀ a, Of key weight (l.filter fun x => outer x = a) (inner t a)

theorem Of₂.nil : Of₂ outer key weight [] (∅ : Std.ExtTreeMap ι (Std.ExtTreeMap κ ℕ)) where
  noEmpty a := by simp
  inner a := by
    rw [Tally.inner, Std.ExtTreeMap.getElem?_empty]
    exact Of.nil

theorem Of₂.add (h : Of₂ outer key weight l t) (hx : 0 < weight x) :
    Of₂ outer key weight (x :: l) (add₂ t (outer x) (key x) (weight x)) where
  noEmpty b := by
    rw [add₂, getElem?_insert]
    split_ifs
    · rw [Ne, Option.some_inj]
      intro he
      have hcount := congrArg (Tally.count · (key x)) he
      simp only [count_add, count_empty, if_true] at hcount
      omega
    · exact h.noEmpty b
  inner b := by
    rw [add₂, inner_insert]
    by_cases hb : outer x = b
    · subst hb
      rw [if_pos rfl, List.filter_cons_of_pos (by simp)]
      exact (h.inner _).add hx
    · rw [if_neg hb, List.filter_cons_of_neg (by simp [hb])]
      exact h.inner b

theorem Of₂.sub (h : Of₂ outer key weight (x :: l) t) :
    Of₂ outer key weight l (sub₂ t (outer x) (key x) (weight x)) where
  noEmpty b := by
    rw [sub₂]
    split_ifs with he
    · rw [getElem?_erase]
      split_ifs
      · exact nofun
      · exact h.noEmpty b
    · rw [getElem?_insert]
      split_ifs
      · rw [Ne, Option.some_inj]
        exact fun h0 => he (Std.ExtTreeMap.isEmpty_iff.2 h0)
      · exact h.noEmpty b
  inner b := by
    have hb := h.inner b
    rw [inner_sub₂]
    by_cases he : outer x = b
    · subst he
      rw [List.filter_cons_of_pos (by simp)] at hb
      rw [if_pos rfl]
      exact hb.sub
    · rw [List.filter_cons_of_neg (by simp [he])] at hb
      rw [if_neg he]
      exact hb

section

variable (h : Of₂ outer key weight l t)
include h

theorem Of₂.perm (hl : l.Perm l') : Of₂ outer key weight l' t where
  noEmpty := h.noEmpty
  inner a := (h.inner a).perm (hl.filter _)

theorem Of₂.unique (h' : Of₂ outer key weight l t') : t = t' := by
  refine Std.ExtTreeMap.ext_getElem? fun a => ?_
  have heq := (h.inner a).unique (h'.inner a)
  have hne := h.noEmpty a
  have hne' := h'.noEmpty a
  rw [Tally.inner, Tally.inner] at heq
  cases ht : t[a]? with
  | none =>
    cases ht' : t'[a]? with
    | none => rfl
    | some m =>
      rw [ht, ht'] at heq
      exact absurd (by rw [ht', show m = ∅ from heq.symm]) hne'
  | some m =>
    cases ht' : t'[a]? with
    | none =>
      rw [ht, ht'] at heq
      exact absurd (by rw [ht, show m = ∅ from heq]) hne
    | some m' =>
      rw [ht, ht'] at heq
      exact congrArg some heq

theorem Of₂.le_count (hx : x ∈ l) : weight x ≤ Tally.count (Tally.inner t (outer x)) (key x) :=
  (h.inner (outer x)).le_count (List.mem_filter.2 ⟨hx, by simp⟩)

theorem Of₂.total : (t.toList.map fun e => Tally.total e.2).sum = (l.map weight).sum := by
  have hA : ∀ a m, t[a]? = some m → a ∈ (l.map outer).toFinset := by
    intro a m ha
    by_contra hnot
    have hnil : (l.filter fun x => outer x = a) = [] := by
      refine List.filter_eq_nil_iff.2 fun x hx he => hnot ?_
      rw [List.mem_toFinset, ← of_decide_eq_true he]
      exact List.mem_map_of_mem hx
    have hof := h.inner a
    rw [hnil] at hof
    have hempty := hof.unique Of.nil
    rw [Tally.inner, ha] at hempty
    exact h.noEmpty a (by rw [ha, show m = ∅ from hempty])
  rw [total_eq Tally.total t hA,
    ← sum_weigh outer weight fun x hx => List.mem_toFinset.2 (List.mem_map_of_mem hx)]
  refine Finset.sum_congr rfl fun a _ => ?_
  rw [← sum_filter, ← (h.inner a).total, Tally.inner]
  cases t[a]? with
  | none => rfl
  | some m => rfl

end

end CodesSim.Tally
