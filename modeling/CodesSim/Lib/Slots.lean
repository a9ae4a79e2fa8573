import Mathlib.Data.List.Perm.Basic

/-!
# Queues and lists of queues

Taking an entry out of a queue (`countP_eraseIdx`), and replacing one queue in a list of queues,
seen from the multiset of everything they hold (`flatten_set_perm`) and from a relation that holds
between two lists of queues element by element (`forall₂_set`).
-/

namespace CodesSim.Slots

variable {α β : Type*}

/-- An entry is taken out of a queue. -/
theorem countP_eraseIdx {as : List α} {i : ℕ} {a : α} (ha : as[i]? = some a) (P : α → Bool) :
    as.countP P = (as.eraseIdx i).countP P + if P a then 1 else 0 := by
  obtain ⟨hi, rfl⟩ := List.getElem?_eq_some_iff.1 ha
  rw [← (List.getElem_cons_eraseIdx_perm hi).countP_eq, List.countP_cons]

theorem flatten_set_perm {l : List (List α)} {i : ℕ} {q : List α} (h : l[i]? = some q) :
    ∃ others, l.flatten.Perm (q ++ others) ∧
      ∀ q', (l.set i q').flatten.Perm (q' ++ others) := by
  induction l generalizing i with
  | nil => simp at h
  | cons a l ih =>
    cases i with
    | zero =>
      obtain rfl : a = q := by simpa using h
      exact ⟨l.flatten, by simp, fun q' => by simp⟩
    | succ i =>
      obtain ⟨others, h1, h2⟩ := ih (by simpa using h)
      refine ⟨a ++ others, ?_, fun q' => ?_⟩
      · rw [List.flatten_cons]
        exact (h1.append_left a).trans (by
          rw [← List.append_assoc, ← List.append_assoc]
          exact List.perm_append_comm.append_right others)
      · rw [List.set_cons_succ, List.flatten_cons]
        exact ((h2 q').append_left a).trans (by
          rw [← List.append_assoc, ← List.append_assoc]
          exact List.perm_append_comm.append_right others)

variable {R : α → β → Prop} {l : List α} {m : List β}

theorem forall₂_get (h : List.Forall₂ R l m)
    {i : ℕ} {a : α} (ha : l[i]? = some a) : ∃ b, m[i]? = some b ∧ R a b := by
  induction h generalizing i with
  | nil => simp at ha
  | cons hab _ ih =>
    cases i with
    | zero => exact ⟨_, rfl, by simp at ha; exact ha ▸ hab⟩
    | succ i => exact ih (by simpa using ha)

theorem forall₂_mem_right (h : List.Forall₂ R l m) {b : β} (hb : b ∈ m) : ∃ a ∈ l, R a b := by
  induction h with
  | nil => simp at hb
  | cons hab _ ih =>
    rcases List.mem_cons.1 hb with rfl | hb
    · exact ⟨_, List.mem_cons_self, hab⟩
    · obtain ⟨a, ha, hR⟩ := ih hb
      exact ⟨a, List.mem_cons_of_mem _ ha, hR⟩

theorem forall₂_set (h : List.Forall₂ R l m)
    (i : ℕ) {a : α} {b : β} (hab : R a b) : List.Forall₂ R (l.set i a) (m.set i b) := by
  induction h generalizing i with
  | nil => simp
  | cons hab' h' ih =>
    cases i with
    | zero => exact .cons hab h'
    | succ i => exact .cons hab' (ih i)

theorem forall₂_imp_mem {S : α → β → Prop} (h : List.Forall₂ R l m)
    (himp : ∀ a, ∀ b ∈ m, R a b → S a b) : List.Forall₂ S l m := by
  induction h with
  | nil => exact .nil
  | cons hab _ ih =>
    exact .cons (himp _ _ List.mem_cons_self hab)
      (ih fun a b hb => himp a b (List.mem_cons_of_mem _ hb))

end CodesSim.Slots
