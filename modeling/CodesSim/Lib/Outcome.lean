import Mathlib.Data.Nat.Notation
import Mathlib.Tactic.SplitIfs

/-!
# Results and failures

Computations that return a result or fail, and go on with what another one has returned.
-/

namespace CodesSim.Outcome

variable {ε α β : Type*} {f : α → β} {x : Except ε α}

theorem map_eq_ok {y : β} (h : x.map f = .ok y) : ∃ u, x = .ok u ∧ y = f u := by
  cases x with
  | error _ => cases h
  | ok u => exact ⟨u, rfl, (Except.ok.inj h).symm⟩

/-- A failure that was mapped is the same failure. -/
theorem map_eq_error {e : ε} (h : x.map f = .error e) : x = .error e := by
  cases x with
  | error _ => cases h; rfl
  | ok u => cases h

theorem toOption_eq_some {y : α} (h : x.toOption = some y) : x = .ok y := by
  cases x with
  | error _ => cases h
  | ok u => exact congrArg Except.ok (Option.some.inj h)

section Sequence

universe u

variable {ε : Type*} {α β : Type u} {x : Except ε α}

/-- A result of a sequence comes from a result of its first part. -/
theorem bind_eq_ok {g : α → Except ε β} {y : β} (h : x >>= g = .ok y) :
    ∃ u, x = .ok u ∧ g u = .ok y := by
  cases x with
  | error _ => cases h
  | ok u => exact ⟨u, rfl, h⟩

theorem map_bind {γ : Type u} {g : α → Except ε β} {f : β → γ} :
    (x >>= g).map f = x >>= fun a => (g a).map f := by
  cases x with
  | error _ => rfl
  | ok u => rfl

theorem bind_map {γ : Type u} {f : α → β} {g : β → Except ε γ} :
    x.map f >>= g = x >>= fun a => g (f a) := by
  cases x with
  | error _ => rfl
  | ok u => rfl

theorem map_guard {c : Prop} [Decidable c] {e : ε} {y : Except ε α} {f : α → β} :
    (if c then .error e else y).map f = if c then .error e else y.map f := by
  split_ifs
  · rfl
  · rfl

/-- **What every step preserves holds at the end.** -/
theorem foldlM_invariant {γ : Type*} {g : β → γ → Except ε β} (P : β → Prop)
    (hstep : ∀ b a b', P b → g b a = .ok b' → P b') {as : List γ} {b b' : β} (hb : P b)
    (h : as.foldlM g b = .ok b') : P b' := by
  induction as generalizing b with
  | nil => cases h; exact hb
  | cons a as ih =>
    rw [List.foldlM_cons] at h
    obtain ⟨mid, hmid, hrest⟩ := bind_eq_ok h
    exact ih (hstep b a mid hb hmid) hrest

theorem mem_of_mapM {ε : Type*} {α β : Type} {g : α → Except ε β} {as : List α} {bs : List β}
    (h : as.mapM g = .ok bs) : ∀ b ∈ bs, ∃ a ∈ as, g a = .ok b := by
  induction as generalizing bs with
  | nil =>
    cases h
    exact fun _ hb => absurd hb List.not_mem_nil
  | cons a as ih =>
    rw [List.mapM_cons] at h
    obtain ⟨b, hb, h⟩ := bind_eq_ok h
    obtain ⟨rest, hrest, h⟩ := bind_eq_ok h
    cases h
    rw [List.forall_mem_cons]
    refine ⟨⟨a, List.mem_cons_self, hb⟩, fun b' hb' => ?_⟩
    obtain ⟨a', ha', heq⟩ := ih hrest b' hb'
    exact ⟨a', List.mem_cons_of_mem _ ha', heq⟩

theorem foldlM_eq_mapM {ε : Type*} {α β γ : Type} {step : β → γ → Except ε β}
    {read : γ → Except ε α}
    {apply : β → α → β} (hstep : ∀ b c, step b c = (read c).map (apply b)) (cs : List γ) (b : β) :
    cs.foldlM step b = (cs.mapM read).map fun as => as.foldl apply b := by
  induction cs generalizing b with
  | nil => rfl
  | cons c cs ih =>
    rw [List.foldlM_cons, List.mapM_cons, hstep]
    cases read c with
    | error _ => rfl
    | ok a =>
      refine (ih (apply b a)).trans ?_
      cases cs.mapM read with
      | error _ => rfl
      | ok as => rfl

/-- A loop that only checks has succeeded if each of its checks has. -/
theorem forM_eq_ok {γ : Type*} {g : γ → Except ε PUnit.{u + 1}} {as : List γ} :
    as.forM g = .ok ⟨⟩ ↔ ∀ a ∈ as, g a = .ok ⟨⟩ := by
  induction as with
  | nil => exact ⟨fun _ _ ha => absurd ha List.not_mem_nil, fun _ => rfl⟩
  | cons a as ih =>
    rw [List.forall_mem_cons, ← ih, List.forM_eq_forM, List.forM_cons]
    cases g a with
    | error _ => exact ⟨fun h => (nomatch h), fun h => (nomatch h.1)⟩
    | ok _ => exact ⟨fun h => ⟨rfl, h⟩, fun h => h.2⟩

/-- A loop whose steps succeed where those of another one do. -/
theorem foldlM_mono {ε : Type*} {β : Type u} {γ : Type*} {g g' : β → γ → Except ε β}
    (hstep : ∀ b a b', g b a = .ok b' → g' b a = .ok b') {as : List γ} {b b' : β}
    (h : as.foldlM g b = .ok b') : as.foldlM g' b = .ok b' := by
  induction as generalizing b with
  | nil => exact h
  | cons a as ih =>
    rw [List.foldlM_cons] at h ⊢
    obtain ⟨mid, hmid, hrest⟩ := bind_eq_ok h
    rw [hstep b a mid hmid]
    exact ih hrest

theorem mapM_eq_map {γ : Type*} {g : γ → Except ε β} {f : γ → β} {as : List γ}
    (h : ∀ a ∈ as, g a = .ok (f a)) : as.mapM g = .ok (as.map f) := by
  induction as with
  | nil => rfl
  | cons a as ih =>
    obtain ⟨ha, has⟩ := List.forall_mem_cons.1 h
    rw [List.mapM_cons, ha, ih has]
    rfl

theorem getElem?_of_mapM {γ : Type*} {g : γ → Except ε β} {as : List γ} {bs : List β}
    (h : as.mapM g = .ok bs) : bs.length = as.length ∧
      ∀ (k : ℕ) (a : γ), as[k]? = some a → ∃ b, bs[k]? = some b ∧ g a = .ok b := by
  induction as generalizing bs with
  | nil =>
    cases h
    exact ⟨rfl, fun k a hk => by simp at hk⟩
  | cons a as ih =>
    rw [List.mapM_cons] at h
    obtain ⟨b, hb, h⟩ := bind_eq_ok h
    obtain ⟨rest, hrest, h⟩ := bind_eq_ok h
    cases h
    obtain ⟨hlen, hget⟩ := ih hrest
    refine ⟨by rw [List.length_cons, List.length_cons, hlen], fun k a' hk => ?_⟩
    cases k with
    | zero =>
      cases hk
      exact ⟨b, rfl, hb⟩
    | succ k => exact hget k a' hk

theorem mapM_split_eq_ok {γ : Type*} {g : γ → Except ε β} {as as' : List γ} {a : γ} {bs : List β} :
    (as ++ a :: as').mapM g = .ok bs ↔ ∃ cs c cs', as.mapM g = .ok cs ∧ g a = .ok c ∧
      as'.mapM g = .ok cs' ∧ bs = cs ++ c :: cs' := by
  rw [List.mapM_append, List.mapM_cons]
  constructor
  · intro h
    obtain ⟨cs, hcs, h⟩ := bind_eq_ok h
    obtain ⟨rest, hrest, h⟩ := bind_eq_ok h
    obtain ⟨c, hc, hrest⟩ := bind_eq_ok hrest
    obtain ⟨cs', hcs', hrest⟩ := bind_eq_ok hrest
    cases hrest
    exact ⟨cs, c, cs', hcs, hc, hcs', (Except.ok.inj h).symm⟩
  · rintro ⟨cs, c, cs', hcs, hc, hcs', rfl⟩
    rw [hcs, hc, hcs']
    rfl

end Sequence

end CodesSim.Outcome
