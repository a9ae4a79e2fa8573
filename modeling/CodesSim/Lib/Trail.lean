import Mathlib.Data.List.Chain

/-!
# Following a step function

`trail next n s` takes `n` labelled steps from `s` and returns the labels in order and the state at
the end; it fails when some step does.  If every step lowers a rank by exactly one as long as the
rank is positive (`Descends`), the trail of every length up to the rank exists and ends with what
is left of the rank (`Descends.trail_eq`).  What holds between the labels of consecutive steps
holds between all, if it is transitive (`trail_pairwise`).
-/

namespace CodesSim

variable {σ ℓ : Type*} (next : σ → Option (ℓ × σ))

/-- `n` steps from a state: the labels of the steps and the state at the end. -/
def trail : ℕ → σ → Option (List ℓ × σ)
  | 0, s => some ([], s)
  | n + 1, s => (next s).bind fun (l, s') => (trail n s').map fun (ls, e) => (l :: ls, e)

variable {next}

variable {n : ℕ} {ls : List ℓ}

theorem trail_succ_eq_some {s e : σ} : trail next (n + 1) s = some (ls, e) ↔
      ∃ l s' rest, next s = some (l, s') ∧ trail next n s' = some (rest, e) ∧ ls = l :: rest := by
  rw [trail, Option.bind_eq_some_iff]
  constructor
  · rintro ⟨⟨l, s'⟩, hl, h⟩
    obtain ⟨⟨rest, e'⟩, hrest, heq⟩ := Option.map_eq_some_iff.1 h
    obtain ⟨rfl, rfl⟩ := Prod.mk.inj heq
    exact ⟨l, s', rest, hl, hrest, rfl⟩
  · rintro ⟨l, s', rest, hl, hrest, rfl⟩
    exact ⟨(l, s'), hl, Option.map_eq_some_iff.2 ⟨(rest, e), hrest, rfl⟩⟩

theorem trail_length {s e : σ} (h : trail next n s = some (ls, e)) : ls.length = n := by
  induction n generalizing s ls with
  | zero =>
    simp only [trail, Option.some.injEq, Prod.mk.injEq] at h
    rw [← h.1, List.length_nil]
  | succ n ih =>
    obtain ⟨l, s', rest, -, hrest, rfl⟩ := trail_succ_eq_some.1 h
    rw [List.length_cons, ih hrest]

/-- A relation between the labels of any two consecutive steps is one between the labels of any
two steps of a trail. -/
theorem trail_pairwise {R : ℓ → ℓ → Prop} (htrans : ∀ a b c, R a b → R b c → R a c)
    (hstep : ∀ s l s' l' s'', next s = some (l, s') → next s' = some (l', s'') → R l l')
    {s e : σ} (h : trail next n s = some (ls, e)) : ls.Pairwise R := by
  have hchain : ls.IsChain R := by
    induction n generalizing s ls with
    | zero =>
      simp only [trail, Option.some.injEq, Prod.mk.injEq] at h
      rw [← h.1]
      exact .nil
    | succ n ih =>
      obtain ⟨l, s', rest, hl, hrest, rfl⟩ := trail_succ_eq_some.1 h
      have hchain := ih hrest
      cases n with
      | zero =>
        simp only [trail, Option.some.injEq, Prod.mk.injEq] at hrest
        rw [← hrest.1]
        exact .singleton _
      | succ n =>
        obtain ⟨l', s'', rest', hl', -, rfl⟩ := trail_succ_eq_some.1 hrest
        exact .cons_cons (hstep _ _ _ _ _ hl hl') hchain
  have : IsTrans ℓ R := ⟨htrans⟩
  exact List.isChain_iff_pairwise.1 hchain

/-- Inside `ok`, every step from a state of positive rank lowers the rank by one. -/
def Descends (next : σ → Option (ℓ × σ)) (ok : σ → Prop) (rank : σ → ℕ) : Prop :=
  ∀ s, ok s → 0 < rank s → ∃ l s', next s = some (l, s') ∧ ok s' ∧ rank s' + 1 = rank s

/-- **The length of a trail.**  Trails of every length up to the rank exist. -/
theorem Descends.trail_eq {ok : σ → Prop} {rank : σ → ℕ} (h : Descends next ok rank)
    {s : σ} (hs : ok s) (hn : n ≤ rank s) :
    ∃ ls e, trail next n s = some (ls, e) ∧ ok e ∧ rank e + n = rank s := by
  induction n generalizing s with
  | zero => exact ⟨[], s, rfl, hs, rfl⟩
  | succ n ih =>
    obtain ⟨l, s', hl, hs', hrank⟩ := h s hs (by omega)
    obtain ⟨ls, e, hls, he, heq⟩ := ih hs' (by omega)
    exact ⟨l :: ls, e, trail_succ_eq_some.2 ⟨l, s', ls, hl, hls, rfl⟩, he, by omega⟩

/-- **The length of a chain.** -/
theorem length_add_rank {R : σ → σ → Prop} {rank : σ → ℕ}
    (hR : ∀ a b, R a b → rank b + 1 = rank a) {a : σ} {l : List σ} (h : (a :: l).IsChain R) :
    l.length + rank (l.getLastD a) = rank a := by
  induction l generalizing a with
  | nil => exact Nat.zero_add _
  | cons b l ih =>
    obtain ⟨hab, htail⟩ := List.isChain_cons_cons.1 h
    have hrest := ih htail
    have hstep := hR a b hab
    rw [List.getLastD_cons, List.length_cons]
    omega

end CodesSim
