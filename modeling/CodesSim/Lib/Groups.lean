import Mathlib.Data.List.Induction
import Mathlib.Data.List.Perm.Basic
import Mathlib.Data.List.Nodup

/-!
# Maps of lists

An ordered map from keys to lists that is filled by `m[k].push_back(x)`: a key is there from its
first element on, so no list is empty (`NoEmpty`) and two such maps with the same lists are the same
(`Groups.ext`).  `By key l m` says that the map holds the elements of a list by their keys, in
order.

Maps derived from such a map by a loop over its keys and elements (`collect`, `regroup`) and
pointers into a list of objects by a key of the object (`Indexes`) are described the same way: by
the list of a key.
-/

namespace CodesSim.Groups

set_option linter.unusedSectionVars false

variable {κ : Type*} [Ord κ] [Std.TransOrd κ] [Std.LawfulEqOrd κ] [DecidableEq κ] {α β : Type*}

/-- The list of a key. -/
def get (m : Std.ExtTreeMap κ (List α)) (k : κ) : List α := m[k]?.getD []

/-- `m[k].push_back(x)`. -/
def push (m : Std.ExtTreeMap κ (List α)) (k : κ) (x : α) : Std.ExtTreeMap κ (List α) :=
  m.insert k (get m k ++ [x])

/-- No key has an empty list. -/
def NoEmpty (m : Std.ExtTreeMap κ (List α)) : Prop := ∀ k : κ, m[k]? ≠ some []

/-- All elements, by the order of the keys. -/
def elems (m : Std.ExtTreeMap κ (List α)) : List α := (m.toList.map Prod.snd).flatten

variable {m m' : Std.ExtTreeMap κ (List α)} {k k' : κ} {x : α} {l : List α}

theorem getElem?_insert (m : Std.ExtTreeMap κ β) (k k' : κ) (v : β) :
    (m.insert k v)[k']? = if k = k' then some v else m[k']? := by
  rw [Std.ExtTreeMap.getElem?_insert]
  simp only [Std.LawfulEqOrd.compare_eq_iff_eq]

@[simp] theorem get_empty : get (∅ : Std.ExtTreeMap κ (List α)) k = [] := by simp [get]

theorem get_push : get (push m k x) k' = if k = k' then get m k ++ [x] else get m k' := by
  rw [get, push, getElem?_insert]
  split_ifs <;> rfl

theorem noEmpty_empty : NoEmpty (∅ : Std.ExtTreeMap κ (List α)) := fun k => by simp

theorem NoEmpty.push (h : NoEmpty m) : NoEmpty (push m k x) := by
  intro k'
  rw [Groups.push, getElem?_insert]
  split_ifs
  · intro h0
    simp at h0
  · exact h k'

theorem NoEmpty.getElem? (h : NoEmpty m) (k : κ) :
    m[k]? = if get m k = [] then none else some (get m k) := by
  have hk := h k
  rw [get]
  cases hm : m[k]? with
  | none => rfl
  | some l =>
    rw [hm] at hk
    rw [Option.getD_some, if_neg fun hl => hk (congrArg some hl)]

theorem ext (h : NoEmpty m) (h' : NoEmpty m') (hget : ∀ k, get m k = get m' k) : m = m' := by
  refine Std.ExtTreeMap.ext_getElem? fun k => ?_
  rw [h.getElem?, h'.getElem?, hget]

theorem mem_elems : x ∈ elems m ↔ ∃ k, x ∈ get m k := by
  rw [elems, List.mem_flatten]
  constructor
  · rintro ⟨l, hl, hx⟩
    obtain ⟨⟨k, l'⟩, he, rfl⟩ := List.mem_map.1 hl
    refine ⟨k, ?_⟩
    rw [get, Std.ExtTreeMap.mem_toList_iff_getElem?_eq_some.1 he]
    exact hx
  · rintro ⟨k, hx⟩
    rw [get] at hx
    cases hm : m[k]? with
    | none => simp [hm] at hx
    | some l =>
      rw [hm] at hx
      exact ⟨l, List.mem_map.2 ⟨(k, l), Std.ExtTreeMap.mem_toList_iff_getElem?_eq_some.2 hm, rfl⟩,
        hx⟩

theorem nodup_toList (m : Std.ExtTreeMap κ β) : m.toList.Nodup :=
  Std.ExtTreeMap.distinct_keys_toList.imp fun hab heq =>
    hab (Std.LawfulEqOrd.compare_eq_iff_eq.2 (congrArg Prod.fst heq))

theorem toList_insert_perm (m : Std.ExtTreeMap κ β) (k : κ) (v : β) :
    (m.insert k v).toList.Perm ((k, v) :: m.toList.filter fun e => e.1 ≠ k) := by
  refine (List.perm_ext_iff_of_nodup (nodup_toList _) (List.nodup_cons.2 ⟨?_, ?_⟩)).2 ?_
  · intro hmem
    simp at hmem
  · exact (nodup_toList m).filter _
  · rintro ⟨k', v'⟩
    rw [Std.ExtTreeMap.mem_toList_iff_getElem?_eq_some, getElem?_insert, List.mem_cons,
      List.mem_filter, Std.ExtTreeMap.mem_toList_iff_getElem?_eq_some]
    by_cases hk : k = k'
    · subst hk
      simp [eq_comm]
    · have hk' : ¬ k' = k := fun he => hk he.symm
      simp [hk, hk']

theorem elems_perm (m : Std.ExtTreeMap κ (List α)) (k : κ) : (elems m).Perm
    (get m k ++ ((m.toList.filter fun e => e.1 ≠ k).map Prod.snd).flatten) := by
  cases hm : m[k]? with
  | none =>
    have hall : (m.toList.filter fun e => e.1 ≠ k) = m.toList := by
      refine List.filter_eq_self.2 fun e he => ?_
      have hget := Std.ExtTreeMap.mem_toList_iff_getElem?_eq_some.1 he
      simp only [ne_eq, decide_not, Bool.not_eq_true', decide_eq_false_iff_not]
      rintro rfl
      rw [hm] at hget
      cases hget
    rw [get, hm, hall]
    exact List.Perm.refl _
  | some l =>
    have hself : m.insert k l = m := by
      refine Std.ExtTreeMap.ext_getElem? fun k' => ?_
      rw [getElem?_insert]
      split_ifs with hk
      · rw [← hk, hm]
      · rfl
    have hperm := ((toList_insert_perm m k l).map Prod.snd).flatten
    rw [hself] at hperm
    rw [get, hm]
    exact hperm

theorem elems_push : (elems (push m k x)).Perm (x :: elems m) := by
  have hpush := ((toList_insert_perm m k (get m k ++ [x])).map Prod.snd).flatten
  rw [List.map_cons, List.flatten_cons] at hpush
  refine hpush.trans (List.Perm.trans ?_ ((elems_perm m k).symm.cons x))
  rw [List.append_assoc]
  exact List.perm_middle

/-! ### Grouping by a key -/

/-- The map holds the elements of a list by their keys; some may have none. -/
structure By (key : α → Option κ) (l : List α) (m : Std.ExtTreeMap κ (List α)) : Prop where
  noEmpty : NoEmpty m
  get : ∀ k, get m k = l.filter fun x => key x = some k

section By

variable {key : α → Option κ}

theorem By.nil : By key [] ∅ := ⟨noEmpty_empty, fun _ => get_empty⟩

theorem By.push (h : By key l m) (hx : key x = some k) : By key (l ++ [x]) (push m k x) where
  noEmpty := h.noEmpty.push
  get k' := by
    rw [get_push, h.get, h.get, List.filter_append]
    by_cases hk : k = k'
    · subst hk
      simp [hx]
    · simp [hx, hk]

theorem By.skip (h : By key l m) (hx : key x = none) : By key (l ++ [x]) m where
  noEmpty := h.noEmpty
  get k' := by
    rw [h.get, List.filter_append]
    simp [hx]

theorem By.unique (h : By key l m) (h' : By key l m') : m = m' :=
  ext h.noEmpty h'.noEmpty fun k => (h.get k).trans (h'.get k).symm

theorem By.elems (h : By key l m) : (elems m).Perm (l.filter fun x => (key x).isSome) := by
  induction l using List.reverseRecOn generalizing m with
  | nil =>
    rw [h.unique By.nil]
    rfl
  | append_singleton l x ih =>
    have hrest : ∃ m₀ : Std.ExtTreeMap κ (List α), By key l m₀ := by
      clear ih h
      induction l using List.reverseRecOn with
      | nil => exact ⟨∅, By.nil⟩
      | append_singleton l x ih =>
        obtain ⟨m₀, h₀⟩ := ih
        cases hx : key x with
        | none => exact ⟨m₀, h₀.skip hx⟩
        | some k => exact ⟨_, h₀.push hx⟩
    obtain ⟨m₀, h₀⟩ := hrest
    rw [List.filter_append]
    cases hx : key x with
    | none =>
      rw [h.unique (h₀.skip hx)]
      simpa [hx] using ih h₀
    | some k =>
      rw [h.unique (h₀.push hx)]
      have hone : [x].filter (fun x => (key x).isSome) = [x] := by simp [hx]
      rw [hone]
      exact elems_push.trans (((ih h₀).cons x).trans (List.perm_append_singleton x _).symm)

theorem By.congr (h : By key l m) {key' : α → Option κ} (hkey : ∀ x ∈ l, key' x = key x) :
    By key' l m where
  noEmpty := h.noEmpty
  get k := by
    rw [h.get]
    exact List.filter_congr fun x hx => by rw [hkey x hx]

end By

/-! ### Maps made by loops -/

/-- For each key and each of its elements, push what the element gives. -/
def collect (f : α → List β) (m : Std.ExtTreeMap κ (List α)) : Std.ExtTreeMap κ (List β) :=
  m.toList.foldl (fun acc e => e.2.foldl (fun acc x => (f x).foldl (push · e.1 ·) acc) acc) ∅

theorem get_foldl_push (l : List α) (m : Std.ExtTreeMap κ (List α)) :
    get (l.foldl (push · k ·) m) k' = if k = k' then get m k ++ l else get m k' := by
  induction l generalizing m with
  | nil =>
    simp only [List.foldl_nil, List.append_nil]
    split_ifs with h
    · rw [h]
    · rfl
  | cons x l ih =>
    rw [List.foldl_cons, ih, get_push, get_push, if_pos rfl]
    split_ifs with h
    · rw [List.append_assoc, List.singleton_append]
    · rfl

theorem NoEmpty.foldl {γ : Type*} {f : Std.ExtTreeMap κ (List α) → γ → Std.ExtTreeMap κ (List α)}
    (hf : ∀ m c, NoEmpty m → NoEmpty (f m c)) (h : NoEmpty m) (l : List γ) :
    NoEmpty (l.foldl f m) := by
  induction l generalizing m with
  | nil => exact h
  | cons c l ih => exact ih (hf m c h)

theorem noEmpty_collect (f : α → List β) (m : Std.ExtTreeMap κ (List α)) : NoEmpty (collect f m) :=
  noEmpty_empty.foldl (fun _ _ h => h.foldl (fun _ _ h => h.foldl (fun _ _ h => h.push) _) _) _

theorem get_foldl_collect (f : α → List β) (l : List α) (acc : Std.ExtTreeMap κ (List β)) :
    get (l.foldl (fun acc x => (f x).foldl (push · k ·) acc) acc) k' =
      if k = k' then get acc k ++ l.flatMap f else get acc k' := by
  induction l generalizing acc with
  | nil =>
    simp only [List.foldl_nil, List.flatMap_nil, List.append_nil]
    split_ifs with h
    · rw [h]
    · rfl
  | cons x l ih =>
    rw [List.foldl_cons, ih, get_foldl_push, get_foldl_push, if_pos rfl]
    split_ifs with h
    · rw [List.append_assoc, List.flatMap_cons]
    · rfl

theorem get_foldl_toList (f : α → List β) {es : List (κ × List α)} (acc : Std.ExtTreeMap κ (List β))
    (hes : es.Pairwise fun a b => a.1 ≠ b.1) :
    get (es.foldl (fun acc e => e.2.foldl (fun acc x => (f x).foldl (push · e.1 ·) acc) acc) acc)
      k = get acc k ++ ((es.filter fun e => e.1 = k).map Prod.snd).flatten.flatMap f := by
  induction es generalizing acc with
  | nil => simp
  | cons e es ih =>
    obtain ⟨hhead, htail⟩ := List.pairwise_cons.1 hes
    rw [List.foldl_cons, ih _ htail, get_foldl_collect]
    by_cases hk : e.1 = k
    · have hnone : es.filter (fun e => e.1 = k) = [] := by
        refine List.filter_eq_nil_iff.2 fun e' he' => ?_
        simpa using fun h => hhead e' he' (hk.trans h.symm)
      rw [if_pos hk, List.filter_cons_of_pos (by simpa using hk), hnone, hk]
      simp
    · rw [if_neg hk, List.filter_cons_of_neg (by simpa using hk)]

theorem flatten_filter_toList (m : Std.ExtTreeMap κ (List α)) (k : κ) :
    ((m.toList.filter fun e => e.1 = k).map Prod.snd).flatten = get m k := by
  have hkeys : ∀ e ∈ m.toList.filter fun e => e.1 = k, e = (k, get m k) := by
    intro e he
    obtain ⟨hmem, hk⟩ := List.mem_filter.1 he
    have hget := Std.ExtTreeMap.mem_toList_iff_getElem?_eq_some.1 hmem
    have hk : e.1 = k := by simpa using hk
    rw [hk] at hget
    exact Prod.ext hk (by rw [get, hget, Option.getD_some])
  have hnodup := (nodup_toList m).filter fun e => e.1 = k
  cases hm : m[k]? with
  | none =>
    have hnil : m.toList.filter (fun e => e.1 = k) = [] := by
      refine List.filter_eq_nil_iff.2 fun e he hk => ?_
      have hget := Std.ExtTreeMap.mem_toList_iff_getElem?_eq_some.1 he
      have hk : e.1 = k := by simpa using hk
      rw [hk, hm] at hget
      cases hget
    rw [hnil, get, hm]
    rfl
  | some l =>
    have hmem : (k, get m k) ∈ m.toList.filter fun e => e.1 = k := by
      refine List.mem_filter.2 ⟨Std.ExtTreeMap.mem_toList_iff_getElem?_eq_some.2 ?_, by simp⟩
      rw [get, hm, Option.getD_some]
    have hone : m.toList.filter (fun e => e.1 = k) = [(k, get m k)] := by
      refine List.perm_singleton.1
        ((List.perm_ext_iff_of_nodup hnodup (List.nodup_singleton _)).2 ?_)
      intro e
      rw [List.mem_singleton]
      exact ⟨hkeys e, fun he => he ▸ hmem⟩
    rw [hone]
    simp

/-- **What a loop makes of the list of a key.** -/
@[simp] theorem get_collect (f : α → List β) (m : Std.ExtTreeMap κ (List α)) (k : κ) :
    get (collect f m) k = (get m k).flatMap f := by
  have hpairwise : m.toList.Pairwise fun a b => a.1 ≠ b.1 :=
    Std.ExtTreeMap.distinct_keys_toList.imp fun hab heq =>
      hab (Std.LawfulEqOrd.compare_eq_iff_eq.2 heq)
  rw [collect, get_foldl_toList f _ hpairwise, get_empty, flatten_filter_toList, List.nil_append]

/-- Push all elements again, by another key. -/
def regroup {ι : Type*} [Ord ι] [Std.TransOrd ι] [Std.LawfulEqOrd ι] (key : α → ι)
    (m : Std.ExtTreeMap κ (List α)) : Std.ExtTreeMap ι (List α) :=
  (elems m).foldl (fun acc x => push acc (key x) x) ∅

theorem by_regroup {ι : Type*} [Ord ι] [Std.TransOrd ι] [Std.LawfulEqOrd ι] [DecidableEq ι]
    (key : α → ι) (m : Std.ExtTreeMap κ (List α)) :
    By (fun x => some (key x)) (elems m) (regroup key m) := by
  have hfold : ∀ (l l₀ : List α) (acc : Std.ExtTreeMap ι (List α)),
      By (fun x => some (key x)) l₀ acc →
        By (fun x => some (key x)) (l₀ ++ l) (l.foldl (fun acc x => push acc (key x) x) acc) := by
    intro l
    induction l with
    | nil =>
      intro l₀ acc h
      rwa [List.append_nil]
    | cons x l ih =>
      intro l₀ acc h
      have hnext := ih (l₀ ++ [x]) _ (h.push rfl)
      rwa [List.append_assoc] at hnext
  exact hfold (elems m) [] ∅ By.nil

/-- Push an element if it is not there. -/
def addAsIfSet [DecidableEq α] (m : Std.ExtTreeMap κ (List α)) (k : κ) (x : α) :
    Std.ExtTreeMap κ (List α) :=
  if x ∈ get m k then m else push m k x

/-- For each key and each of its elements, push what the element gives if it is not there. -/
def collectSet [DecidableEq β] (f : α → Option β) (m : Std.ExtTreeMap κ (List α)) :
    Std.ExtTreeMap κ (List β) :=
  m.toList.foldl (fun acc e => e.2.foldl (fun acc x => match f x with
    | some y => addAsIfSet acc e.1 y
    | none => acc) acc) ∅

theorem mem_addAsIfSet [DecidableEq α] {y : α} :
    y ∈ get (addAsIfSet m k x) k' ↔ y ∈ get m k' ∨ (k = k' ∧ y = x) := by
  rw [addAsIfSet]
  split_ifs with hx
  · refine (or_iff_left_of_imp ?_).symm
    rintro ⟨rfl, rfl⟩
    exact hx
  · rw [get_push]
    split_ifs with hk
    · subst hk
      simp
    · simp [hk]

theorem mem_foldl_addAsIfSet [DecidableEq β] {f : α → Option β} (l : List α)
    (acc : Std.ExtTreeMap κ (List β)) {y : β} :
    y ∈ get (l.foldl (fun acc x => match f x with
      | some y => addAsIfSet acc k y
      | none => acc) acc) k' ↔ y ∈ get acc k' ∨ (k = k' ∧ ∃ x ∈ l, f x = some y) := by
  induction l generalizing acc with
  | nil => simp
  | cons x l ih =>
    rw [List.foldl_cons, ih]
    cases hx : f x with
    | none => simp [hx]
    | some z =>
      rw [mem_addAsIfSet]
      simp only [List.mem_cons, exists_eq_or_imp, hx, Option.some.injEq, eq_comm (a := z)]
      tauto

/-- **What a loop makes of the set of a key.** -/
theorem mem_collectSet [DecidableEq β] {f : α → Option β} {y : β} :
    y ∈ get (collectSet f m) k ↔ ∃ x ∈ get m k, f x = some y := by
  have hfold : ∀ (es : List (κ × List α)) (acc : Std.ExtTreeMap κ (List β)),
      y ∈ get (es.foldl (fun acc e => e.2.foldl (fun acc x => match f x with
        | some y => addAsIfSet acc e.1 y
        | none => acc) acc) acc) k ↔ y ∈ get acc k ∨ ∃ e ∈ es, e.1 = k ∧ ∃ x ∈ e.2,
          f x = some y := by
    intro es
    induction es with
    | nil => simp
    | cons e es ih =>
      intro acc
      rw [List.foldl_cons, ih, mem_foldl_addAsIfSet, or_assoc, List.exists_mem_cons_iff]
  rw [collectSet, hfold, get_empty, ← flatten_filter_toList m k]
  simp only [List.not_mem_nil, false_or, List.mem_flatten, List.mem_map, List.mem_filter,
    decide_eq_true_eq]
  constructor
  · rintro ⟨e, he, hk, x, hx, hf⟩
    exact ⟨x, ⟨e.2, ⟨e, ⟨he, hk⟩, rfl⟩, hx⟩, hf⟩
  · rintro ⟨x, ⟨_, ⟨e, ⟨he, hk⟩, rfl⟩, hx⟩, hf⟩
    exact ⟨e, he, hk, x, hx, hf⟩

/-! ### Pointers by a key -/

/-- The map holds the pointers to the objects of a list by their keys, in order. -/
def Indexes {ι : Type*} [DecidableEq ι] (key : α → ι) (heap : List α) (index : ι → List ℕ) : Prop :=
  ∀ k, index k = (List.range heap.length).filter fun i => heap[i]?.map key = some k

section Indexes

variable {ι : Type*} [DecidableEq ι] {key : α → ι} {heap heap' : List α} {index : ι → List ℕ}

theorem Indexes.nil : Indexes key [] fun _ => [] := fun _ => rfl

/-- A new object. -/
theorem Indexes.append (h : Indexes key heap index) (x : α) : Indexes key (heap ++ [x])
    (Function.update index (key x) (index (key x) ++ [heap.length])) := by
  intro k
  have hold : (List.range heap.length).filter (fun i => (heap ++ [x])[i]?.map key = some k) =
      index k := by
    rw [h k]
    refine List.filter_congr fun i hi => ?_
    rw [List.getElem?_append_left (List.mem_range.1 hi)]
  have hnew : (heap ++ [x])[heap.length]? = some x := by simp
  rw [List.length_append, List.length_singleton, List.range_succ, List.filter_append, hold]
  by_cases hk : k = key x
  · subst hk
    rw [Function.update_self, List.filter_cons_of_pos (by simp)]
    rfl
  · have hk' : ¬ key x = k := fun he => hk he.symm
    rw [Function.update_of_ne hk, List.filter_cons_of_neg (by simp [hk'])]
    simp

/-- Objects may change, but not their keys. -/
theorem Indexes.congr (h : Indexes key heap index) (hkeys : heap'.map key = heap.map key) :
    Indexes key heap' index := by
  have hlen : heap'.length = heap.length := by
    have := congrArg List.length hkeys
    simpa using this
  intro k
  rw [h k, hlen]
  refine List.filter_congr fun i _ => ?_
  rw [← List.getElem?_map, ← List.getElem?_map, hkeys]

theorem filterMap_range (heap : List α) (P : α → Bool) :
    ((List.range heap.length).filter fun i => (heap[i]?.map P).getD false).filterMap (heap[·]?) =
      heap.filter P := by
  induction heap using List.reverseRecOn with
  | nil => rfl
  | append_singleton heap x ih =>
    have hold : (List.range heap.length).filter (fun i => ((heap ++ [x])[i]?.map P).getD false) =
        (List.range heap.length).filter fun i => (heap[i]?.map P).getD false := by
      refine List.filter_congr fun i hi => ?_
      rw [List.getElem?_append_left (List.mem_range.1 hi)]
    rw [List.length_append, List.length_singleton, List.range_succ, List.filter_append, hold,
      List.filterMap_append, List.filter_append, ← ih]
    congr 1
    · refine List.filterMap_congr fun i hi => ?_
      rw [List.getElem?_append_left (List.mem_range.1 (List.mem_filter.1 hi).1)]
    · by_cases hx : P x <;> simp [hx]

/-- **The objects of a key.** -/
theorem Indexes.deref (h : Indexes key heap index) (k : ι) :
    (index k).filterMap (heap[·]?) = heap.filter fun x => key x = k := by
  rw [h k, ← filterMap_range heap fun x => key x = k]
  congr 1
  refine List.filter_congr fun i _ => ?_
  cases heap[i]? <;> simp

theorem Indexes.nodup (h : Indexes key heap index) (k : ι) : (index k).Nodup := by
  rw [h k]
  exact List.nodup_range.filter _

theorem Indexes.mem (h : Indexes key heap index) {k : ι} {i : ℕ} :
    i ∈ index k ↔ ∃ x, heap[i]? = some x ∧ key x = k := by
  rw [h k, List.mem_filter, List.mem_range]
  simp only [decide_eq_true_eq, Option.map_eq_some_iff]
  exact and_iff_right_of_imp fun ⟨x, hx, _⟩ => (List.getElem?_eq_some_iff.1 hx).1

end Indexes

end CodesSim.Groups
