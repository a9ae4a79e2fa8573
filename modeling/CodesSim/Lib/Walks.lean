import Mathlib.Data.List.Basic

/-!
# Walks with near and far steps

A walk makes near and far steps.  The far steps cut its near steps into runs (`runs`), and a walk is
within bounds if it has exactly so many far steps, its first run is at most so long, and no later
run is longer than a fixed bound (`Within`).  `reach_iff` unfolds a walk by its first step.
-/

namespace CodesSim.Walks

variable {α β : Type*}

inductive Kind where
  | near
  | far

/-- The lengths of the runs of near steps: of those before the first far step, and of those behind
each far step. -/
def runs : List Kind → ℕ × List ℕ
  | [] => (0, [])
  | .near :: kinds => ((runs kinds).1 + 1, (runs kinds).2)
  | .far :: kinds => (0, (runs kinds).1 :: (runs kinds).2)

/-- Exactly `far` far steps, at most `near` near steps before the first of them and at most `perRun`
behind each. -/
structure Within (perRun near far : ℕ) (kinds : List Kind) : Prop where
  first : (runs kinds).1 ≤ near
  count : (runs kinds).2.length = far
  later : ∀ n ∈ (runs kinds).2, n ≤ perRun

variable {perRun near far : ℕ} {kinds : List Kind}

theorem within_nil : Within perRun near far [] ↔ far = 0 :=
  ⟨fun h => h.count.symm, fun h => ⟨Nat.zero_le _, h.symm, by simp [runs]⟩⟩

theorem within_near : Within perRun near far (.near :: kinds) ↔
    0 < near ∧ Within perRun (near - 1) far kinds := by
  constructor
  · intro h
    have hfirst : (runs kinds).1 + 1 ≤ near := h.first
    exact ⟨by omega, Nat.le_sub_of_add_le hfirst, h.count, h.later⟩
  · rintro ⟨hpos, h⟩
    have hfirst := h.first
    refine ⟨?_, h.count, h.later⟩
    change (runs kinds).1 + 1 ≤ near
    omega

theorem within_far : Within perRun near far (.far :: kinds) ↔
    0 < far ∧ Within perRun perRun (far - 1) kinds := by
  constructor
  · intro h
    have hcount : (runs kinds).2.length + 1 = far := h.count
    exact ⟨by omega, h.later _ List.mem_cons_self, by omega,
      fun n hn => h.later n (List.mem_cons_of_mem _ hn)⟩
  · rintro ⟨hpos, h⟩
    have hcount := h.count
    refine ⟨Nat.zero_le _, ?_, fun n hn => ?_⟩
    · change (runs kinds).2.length + 1 = far
      omega
    · obtain rfl | hn := List.mem_cons.1 hn
      · exact h.first
      · exact h.later n hn

/-- A walk, by the kinds and the ends of its steps. -/
def Walk (R : Kind → α → α → Prop) : α → List (Kind × α) → α → Prop
  | a, [], b => a = b
  | a, (kind, c) :: steps, b => R kind a c ∧ Walk R c steps b

theorem Walk.mono {R R' : Kind → α → α → Prop} (hR : ∀ kind a b, R kind a b → R' kind a b) {a b : α}
    {steps : List (Kind × α)} (h : Walk R a steps b) : Walk R' a steps b := by
  induction steps generalizing a with
  | nil => exact h
  | cons s steps ih => exact ⟨hR _ _ _ h.1, ih h.2⟩

/-- A walk within bounds leads from `a` to `b`. -/
def Reach (R : Kind → α → α → Prop) (perRun near far : ℕ) (a b : α) : Prop :=
  ∃ steps, Walk R a steps b ∧ Within perRun near far (steps.map Prod.fst)

/-- A step of some kind starts a walk within bounds. -/
def Starts (R : Kind → α → α → Prop) (perRun near far : ℕ) (kind : Kind) (c b : α) : Prop :=
  ∃ steps, Walk R c steps b ∧ Within perRun near far (kind :: steps.map Prod.fst)

variable {R : Kind → α → α → Prop} {a b c : α}

theorem starts_near : Starts R perRun near far .near c b ↔
    0 < near ∧ Reach R perRun (near - 1) far c b := by
  simp only [Starts, within_near, Reach]
  exact ⟨fun ⟨steps, hwalk, hpos, h⟩ => ⟨hpos, steps, hwalk, h⟩,
    fun ⟨hpos, steps, hwalk, h⟩ => ⟨steps, hwalk, hpos, h⟩⟩

theorem starts_far : Starts R perRun near far .far c b ↔
    0 < far ∧ Reach R perRun perRun (far - 1) c b := by
  simp only [Starts, within_far, Reach]
  exact ⟨fun ⟨steps, hwalk, hpos, h⟩ => ⟨hpos, steps, hwalk, h⟩,
    fun ⟨hpos, steps, hwalk, h⟩ => ⟨steps, hwalk, hpos, h⟩⟩

/-- **A walk has no step or a first step.** -/
theorem reach_iff : Reach R perRun near far a b ↔
    (a = b ∧ far = 0) ∨ ∃ kind c, R kind a c ∧ Starts R perRun near far kind c b := by
  constructor
  · rintro ⟨steps, hwalk, hwithin⟩
    cases steps with
    | nil => exact .inl ⟨hwalk, within_nil.1 hwithin⟩
    | cons s steps => exact .inr ⟨s.1, s.2, hwalk.1, steps, hwalk.2, hwithin⟩
  · rintro (⟨hab, hfar⟩ | ⟨kind, c, hstep, steps, hwalk, hwithin⟩)
    · exact ⟨[], hab, within_nil.2 hfar⟩
    · exact ⟨(kind, c) :: steps, ⟨hstep, hwalk⟩, hwithin⟩

/-- Steps that stay where a function has some value. -/
def Inside (f : α → β) (v : β) (R : Kind → α → α → Prop) (kind : Kind) (a b : α) : Prop :=
  R kind a b ∧ f b = v

theorem walk_inside_iff {f : α → β} (hf : ∀ kind a b, R kind a b → f a = f b)
    {steps : List (Kind × α)} : Walk (Inside f (f a) R) a steps b ↔ Walk R a steps b := by
  induction steps generalizing a with
  | nil => exact Iff.rfl
  | cons s steps ih =>
    constructor
    · exact Walk.mono fun kind a b h => h.1
    · rintro ⟨hstep, hwalk⟩
      have hsame := hf _ _ _ hstep
      refine ⟨⟨hstep, hsame.symm⟩, ?_⟩
      rw [hsame]
      exact ih.2 hwalk

end CodesSim.Walks
