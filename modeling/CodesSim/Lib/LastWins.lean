import Mathlib.Data.List.Nodup
import Mathlib.Data.List.Perm.Basic

/-!
# The last writer wins

Lists of definitions, each with a key, of which the last one of a key counts.

* `lasts` has the definitions that no later one replaces, in the order of the list.
* `put` erases what has the key of a definition and appends it, and `overwrite` puts it in the place
  of what has its key.  From definitions in order, the first makes `lasts` (`foldl_put`), the second
  a permutation of it (`foldl_overwrite_perm`).
-/

namespace CodesSim.LastWins

variable {α κ : Type*} [DecidableEq κ] (key : α → κ)

/-- The definitions that no later one replaces. -/
def lasts : List α → List α
  | [] => []
  | a :: l => if key a ∈ l.map key then lasts l else a :: lasts l

/-- The last definition of a key. -/
def lastOf (k : κ) (l : List α) : Option α := l.reverse.find? fun a => key a = k

/-- Erase and append. -/
def put (l : List α) (a : α) : List α := (l.filter fun e => key e ≠ key a) ++ [a]

/-- Replace, or append what is new. -/
def overwrite : List α → α → List α
  | [], a => [a]
  | e :: l, a => if key e = key a then a :: l else e :: overwrite l a

variable {key}

/-! ### The definitions that count -/

variable {l : List α}

theorem mem_keys_lasts {k : κ} : k ∈ (lasts key l).map key ↔ k ∈ l.map key := by
  induction l with
  | nil => rfl
  | cons a l ih =>
    rw [lasts]
    split_ifs with hlater
    · rw [ih, List.map_cons, List.mem_cons]
      exact ⟨.inr, fun h => h.elim (fun heq => heq ▸ hlater) id⟩
    · rw [List.map_cons, List.mem_cons, ih, List.map_cons, List.mem_cons]

theorem nodup_lasts (l : List α) : ((lasts key l).map key).Nodup := by
  induction l with
  | nil => exact List.nodup_nil
  | cons a l ih =>
    rw [lasts]
    split_ifs with hlater
    · exact ih
    · exact List.nodup_cons.2 ⟨mem_keys_lasts.not.2 hlater, ih⟩

theorem lastOf_cons (k : κ) (a : α) (l : List α) :
    lastOf key k (a :: l) = (lastOf key k l).or (if key a = k then some a else none) := by
  rw [lastOf, List.reverse_cons, List.find?_append, ← lastOf, List.find?_singleton]
  simp only [decide_eq_true_eq]

theorem lastOf_eq_none {k : κ} : lastOf key k l = none ↔ k ∉ l.map key := by
  rw [lastOf, List.find?_eq_none]
  simp

theorem lastOf_append (k : κ) (l l' : List α) :
    lastOf key k (l ++ l') = (lastOf key k l').or (lastOf key k l) := by
  rw [lastOf, List.reverse_append, List.find?_append, lastOf, lastOf]

theorem lastOf_append_covered (k : κ) {m : List α} (h : ∀ a ∈ m, key a ∈ l.map key) :
    lastOf key k (m ++ l) = lastOf key k l := by
  rw [lastOf_append]
  cases hlast : lastOf key k l with
  | some _ => rfl
  | none =>
    rw [Option.none_or, lastOf_eq_none]
    intro hmem
    obtain ⟨a, ha, rfl⟩ := List.mem_map.1 hmem
    exact lastOf_eq_none.1 hlast (h a ha)

theorem mem_lasts {a : α} : a ∈ lasts key l ↔ lastOf key (key a) l = some a := by
  induction l with
  | nil => exact ⟨fun h => absurd h List.not_mem_nil, fun h => nomatch h⟩
  | cons b l ih =>
    rw [lasts, lastOf_cons]
    split_ifs with hlater hkey hkey
    · -- the key of the first one is defined again
      obtain ⟨c, hc⟩ := Option.ne_none_iff_exists'.1
        (mt lastOf_eq_none.1 (not_not.2 (hkey ▸ hlater)))
      rw [ih, hc, Option.some_or]
    · rw [ih, Option.or_none]
    · rw [hkey] at hlater
      rw [List.mem_cons, ih, lastOf_eq_none.2 hlater, Option.none_or, Option.some_inj]
      exact ⟨fun h => h.elim Eq.symm nofun, fun h => .inl h.symm⟩
    · rw [List.mem_cons, ih, Option.or_none]
      exact ⟨fun h => h.resolve_left fun heq => hkey (congrArg key heq.symm), .inr⟩

/-- **Where the last definitions agree**, the lists of them do, up to order. -/
theorem lasts_perm {l' : List α} (h : ∀ k, lastOf key k l = lastOf key k l') :
    (lasts key l).Perm (lasts key l') := by
  refine (List.perm_ext_iff_of_nodup (nodup_lasts l).of_map (nodup_lasts l').of_map).2 fun a => ?_
  rw [mem_lasts, mem_lasts, h]

theorem lasts_append (l l' : List α) :
    lasts key (l ++ l') = (lasts key l).filter (fun a => key a ∉ l'.map key) ++ lasts key l' := by
  induction l with
  | nil => rfl
  | cons a l ih =>
    have hmem : key a ∈ (l ++ l').map key ↔ key a ∈ l.map key ∨ key a ∈ l'.map key := by
      rw [List.map_append, List.mem_append]
    rw [List.cons_append, lasts, lasts]
    by_cases hlater : key a ∈ l.map key
    · rw [if_pos (hmem.2 (.inl hlater)), if_pos hlater, ih]
    · rw [if_neg hlater]
      by_cases hlater' : key a ∈ l'.map key
      · rw [if_pos (hmem.2 (.inr hlater')), List.filter_cons_of_neg (by simpa using hlater'), ih]
      · rw [if_neg (hmem.not.2 (not_or.2 ⟨hlater, hlater'⟩)),
          List.filter_cons_of_pos (by simpa using hlater'), ih, List.cons_append]

/-- A definition that nothing replaces stands between those that count. -/
theorem lasts_split (l : List α) {a : α} {l' : List α} (h : key a ∉ l'.map key) :
    lasts key (l ++ a :: l') =
      (lasts key l).filter (fun b => key b ∉ (a :: l').map key) ++ a :: lasts key l' := by
  rw [lasts_append, lasts, if_neg h]

/-- **Definitions that are all replaced later do not count.** -/
theorem lasts_append_covered (l : List α) {m m' : List α} (h : ∀ a ∈ m, key a ∈ m'.map key) :
    lasts key (l ++ (m ++ m')) = lasts key (l ++ m') := by
  have hnone : (lasts key m).filter (fun a => key a ∉ m'.map key) = [] := by
    refine List.filter_eq_nil_iff.2 fun a ha => ?_
    obtain ⟨b, hb, hkey⟩ := List.mem_map.1 (mem_keys_lasts.1 (List.mem_map_of_mem ha))
    simpa [← hkey] using h b hb
  have hkeys : ∀ a, key a ∉ (m ++ m').map key ↔ key a ∉ m'.map key := fun a => by
    rw [List.map_append, List.mem_append, not_or, and_iff_right_iff_imp]
    intro hnew hmem
    obtain ⟨b, hb, hkey⟩ := List.mem_map.1 hmem
    exact hnew (hkey ▸ h b hb)
  rw [lasts_append, lasts_append l m', lasts_append m, hnone, List.nil_append]
  simp only [hkeys]

/-! ### How they are kept -/

theorem put_lasts (l : List α) (a : α) : put key (lasts key l) a = lasts key (l ++ [a]) := by
  rw [lasts_append, put]
  simp [lasts]

/-- **Erasing and appending keeps the last definitions.** -/
theorem foldl_put (l l' : List α) : l'.foldl (put key) (lasts key l) = lasts key (l ++ l') := by
  induction l' generalizing l with
  | nil => rw [List.append_nil, List.foldl_nil]
  | cons a l' ih => rw [List.foldl_cons, put_lasts, ih, List.append_assoc, List.singleton_append]

theorem put_perm {l' : List α} (h : l.Perm l') (a : α) : (put key l a).Perm (put key l' a) :=
  (h.filter _).append_right _

theorem nodup_put (h : (l.map key).Nodup) (a : α) : ((put key l a).map key).Nodup := by
  rw [put, List.map_append, List.nodup_append]
  refine ⟨h.sublist (List.filter_sublist.map key), List.nodup_singleton _, fun k hk k' hk' => ?_⟩
  obtain ⟨e, he, rfl⟩ := List.mem_map.1 hk
  obtain rfl := List.mem_singleton.1 hk'
  simpa using (List.mem_filter.1 he).2

/-- Replacing is erasing and appending, up to order. -/
theorem overwrite_perm (h : (l.map key).Nodup) (a : α) :
    (overwrite key l a).Perm (put key l a) := by
  induction l with
  | nil => exact .refl _
  | cons e l ih =>
    obtain ⟨hnew, hrest⟩ := List.nodup_cons.1 h
    rw [overwrite, put]
    split_ifs with hkey
    · -- nothing else has the key
      have hsame : l.filter (fun e => key e ≠ key a) = l := by
        refine List.filter_eq_self.2 fun e' he' => ?_
        rw [decide_eq_true_eq, ← hkey]
        exact fun heq => hnew (heq ▸ List.mem_map_of_mem he')
      rw [List.filter_cons_of_neg (by simpa using hkey), hsame]
      exact (List.perm_append_singleton a l).symm
    · rw [List.filter_cons_of_pos (by simpa using hkey), List.cons_append]
      exact (ih hrest).cons e

/-- **Replacing keeps the last definitions, up to order.** -/
theorem foldl_overwrite_perm {l' : List α} (h : (l.map key).Nodup) (hl : l.Perm l') (as : List α) :
    (as.foldl (overwrite key) l).Perm (as.foldl (put key) l') := by
  induction as generalizing l l' with
  | nil => exact hl
  | cons a as ih =>
    have hperm := (overwrite_perm h a).trans (put_perm hl a)
    have hnodup : ((overwrite key l a).map key).Nodup :=
      ((overwrite_perm h a).map key).nodup_iff.2 (nodup_put h a)
    exact ih hnodup hperm

theorem foldl_put_eq (l l' : List α) :
    l'.foldl (put key) l = l.filter (fun a => key a ∉ l'.map key) ++ lasts key l' := by
  induction l' generalizing l with
  | nil => simp [lasts]
  | cons a l' ih =>
    rw [List.foldl_cons, ih, put, List.filter_append, List.filter_filter, lasts]
    have hkeys : ∀ e, (decide (key e ∉ l'.map key) && decide (key e ≠ key a)) =
        decide (key e ∉ (a :: l').map key) := fun e => by
      rw [← Bool.decide_and, decide_eq_decide, List.map_cons, List.mem_cons]
      tauto
    simp only [hkeys]
    split_ifs with hlater
    · rw [List.filter_cons_of_neg (by simpa using hlater), List.filter_nil, List.append_nil]
    · rw [List.filter_cons_of_pos (by simpa using hlater), List.filter_nil, List.append_assoc,
        List.singleton_append]

/-- What was appended is only appended again. -/
theorem foldl_put_twice (l l' : List α) :
    l'.foldl (put key) (l'.foldl (put key) l) = l'.foldl (put key) l := by
  have hnone : (lasts key l').filter (fun a => key a ∉ l'.map key) = [] := by
    refine List.filter_eq_nil_iff.2 fun a ha => ?_
    simpa using mem_keys_lasts.1 (List.mem_map_of_mem ha)
  rw [foldl_put_eq, foldl_put_eq, List.filter_append, hnone, List.append_nil, List.filter_filter]
  simp only [Bool.and_self]

/-! ### What is replaced in place -/

theorem overwrite_of_mem (h : (l.map key).Nodup) {a : α} (ha : key a ∈ l.map key) :
    overwrite key l a = l.map fun e => if key e = key a then a else e := by
  induction l with
  | nil => exact absurd ha List.not_mem_nil
  | cons e l ih =>
    obtain ⟨hnew, hrest⟩ := List.nodup_cons.1 h
    rw [overwrite, List.map_cons]
    split_ifs with hkey
    · have hsame : l.map (fun e => if key e = key a then a else e) = l := by
        refine (List.map_congr_left fun e' he' => if_neg fun heq => hnew ?_).trans (List.map_id l)
        rw [hkey, ← heq]
        exact List.mem_map_of_mem he'
      rw [hsame]
    · rw [ih hrest ((List.mem_cons.1 ha).resolve_left fun heq => hkey heq.symm)]

theorem foldl_overwrite_of_mem (h : (l.map key).Nodup) {as : List α}
    (has : ∀ a ∈ as, key a ∈ l.map key) :
    as.foldl (overwrite key) l = l.map fun e => (lastOf key (key e) as).getD e := by
  induction as generalizing l with
  | nil => exact (List.map_id l).symm
  | cons a as ih =>
    have hkey : ∀ e, key (if key e = key a then a else e) = key e := fun e => by
      split_ifs with heq
      · exact heq.symm
      · rfl
    have hkeys : (l.map fun e => if key e = key a then a else e).map key = l.map key := by
      rw [List.map_map]
      exact List.map_congr_left fun e _ => hkey e
    rw [List.foldl_cons, overwrite_of_mem h (has a List.mem_cons_self), ih (hkeys ▸ h)
      fun b hb => hkeys ▸ has b (List.mem_cons_of_mem _ hb), List.map_map]
    refine List.map_congr_left fun e _ => ?_
    rw [Function.comp_apply, hkey, lastOf_cons]
    cases lastOf key (key e) as with
    | some _ => rfl
    | none =>
      rw [Option.none_or, Option.getD_none]
      by_cases heq : key e = key a
      · rw [if_pos heq, if_pos heq.symm, Option.getD_some]
      · rw [if_neg heq, if_neg fun h => heq h.symm, Option.getD_none]

/-- What was replaced is only replaced by itself again. -/
theorem foldl_overwrite_twice (h : (l.map key).Nodup) (as : List α) :
    as.foldl (overwrite key) (as.foldl (overwrite key) l) = as.foldl (overwrite key) l := by
  have hperm := foldl_overwrite_perm h (.refl l) as
  rw [foldl_put_eq] at hperm
  have hnodup : ((as.foldl (overwrite key) l).map key).Nodup := by
    rw [(hperm.map key).nodup_iff, List.map_append, List.nodup_append]
    refine ⟨h.sublist (List.filter_sublist.map key), nodup_lasts as, fun k hk k' hk' => ?_⟩
    obtain ⟨e, he, rfl⟩ := List.mem_map.1 hk
    rintro rfl
    exact of_decide_eq_true (List.mem_filter.1 he).2 (mem_keys_lasts.1 hk')
  rw [foldl_overwrite_of_mem hnodup fun a ha => ?_]
  · refine (List.map_congr_left fun e he => ?_).trans (List.map_id _)
    rcases List.mem_append.1 (hperm.mem_iff.1 he) with hold | hnew
    · rw [lastOf_eq_none.2 (of_decide_eq_true (List.mem_filter.1 hold).2), Option.getD_none, id]
    · rw [mem_lasts.1 hnew, Option.getD_some, id]
  · rw [(hperm.map key).mem_iff, List.map_append, List.mem_append]
    exact .inr (mem_keys_lasts.2 (List.mem_map_of_mem ha))

/-! ### Lookups and single definitions -/

theorem find?_eq_some_iff (h : (l.map key).Nodup) {k : κ} {a : α} :
    l.find? (fun e => key e = k) = some a ↔ a ∈ l ∧ key a = k := by
  have hfound : ∀ b k, l.find? (fun e => key e = k) = some b → b ∈ l ∧ key b = k := by
    intro b k hfind
    have hkey := List.find?_some hfind
    exact ⟨List.mem_of_find?_eq_some hfind, of_decide_eq_true hkey⟩
  constructor
  · exact hfound a k
  · rintro ⟨ha, rfl⟩
    obtain ⟨b, hb⟩ := Option.isSome_iff_exists.1 (List.find?_isSome.2
      ⟨a, ha, decide_eq_true (Eq.refl (key a))⟩ : (l.find? fun e => key e = key a).isSome = true)
    obtain ⟨hmem, hkey⟩ := hfound b _ hb
    rw [hb, List.inj_on_of_nodup_map h hmem ha hkey]

theorem find?_perm {l' : List α} (h : (l.map key).Nodup) (hperm : l.Perm l') (k : κ) :
    l.find? (fun e => key e = k) = l'.find? fun e => key e = k :=
  Option.ext fun a => by
    rw [find?_eq_some_iff h, find?_eq_some_iff ((hperm.map key).nodup_iff.1 h), hperm.mem_iff]

theorem getLast?_perm {l' : List α} (hperm : l.Perm l') (hsame : ∀ a ∈ l, ∀ b ∈ l, a = b) :
    l.getLast? = l'.getLast? := by
  cases hlast : l.getLast? with
  | none =>
    obtain rfl := List.getLast?_eq_none_iff.1 hlast
    rw [List.nil_perm.1 hperm]
    rfl
  | some a =>
    have ha := List.mem_of_getLast? hlast
    cases hlast' : l'.getLast? with
    | none =>
      obtain rfl := List.getLast?_eq_none_iff.1 hlast'
      exact absurd (hperm.mem_iff.1 ha) List.not_mem_nil
    | some b => rw [hsame a ha b (hperm.mem_iff.2 (List.mem_of_getLast? hlast'))]

theorem foldl_or {β : Type*} (g : α → Option β) (l : List α) (b : Option β) :
    l.foldl (fun b a => (g a).or b) b = (l.filterMap g).getLast?.or b := by
  induction l generalizing b with
  | nil => rfl
  | cons a l ih =>
    rw [List.foldl_cons, ih]
    cases ha : g a with
    | none => rw [List.filterMap_cons_none ha, Option.none_or]
    | some x =>
      rw [List.filterMap_cons_some ha, List.getLast?_cons, Option.some_or, Option.some_or]
      cases (l.filterMap g).getLast? with
      | none => rfl
      | some _ => rfl

end CodesSim.LastWins
