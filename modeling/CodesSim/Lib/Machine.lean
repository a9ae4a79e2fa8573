import Mathlib.Data.List.Basic

/-!
# Machines and reversible machines

A `Machine` moves from state to state by labelled steps that may fail (an aborted assertion, an
index out of range).  Nondeterminism is in the labels: a run is a list of labels, and what holds
after every list of labels holds in every reachable state (`Machine.run_invariant`).

A `RevMachine` is what optimistic simulation runs on: a step leaves a record from which a second
function undoes it.  If one step can be undone whenever an invariant holds, a whole run can be
undone, last step first (`RevMachine.undoAll_runLog`).
-/

namespace CodesSim

/-- A machine with states `S` and labels `L`. -/
structure Machine (S L : Type*) where
  /-- The state after a step, or `none` if the step fails. -/
  step : S → L → Option S

namespace Machine

variable {S L : Type*} (M : Machine S L)

/-- Run a list of labels. -/
def run : S → List L → Option S
  | s, [] => some s
  | s, l :: ls => (M.step s l).bind fun s' => run s' ls

variable {M}

@[simp] theorem run_nil (s : S) : M.run s [] = some s := rfl

theorem run_cons_eq_some {s s' : S} {l : L} {ls : List L} :
    M.run s (l :: ls) = some s' ↔ ∃ t, M.step s l = some t ∧ M.run t ls = some s' := by
  rw [run, Option.bind_eq_some_iff]

theorem run_invariant {I : S → Prop} {P : L → Prop}
    (hstep : ∀ s l s', I s → P l → M.step s l = some s' → I s') {s s' : S} {ls : List L}
    (hs : I s) (hls : ∀ l ∈ ls, P l) (h : M.run s ls = some s') : I s' := by
  induction ls generalizing s with
  | nil => cases h; exact hs
  | cons l ls ih =>
    obtain ⟨t, ht, hrun⟩ := run_cons_eq_some.1 h
    exact ih (hstep s l t hs (hls l List.mem_cons_self) ht)
      (fun l' hl' => hls l' (List.mem_cons_of_mem _ hl')) hrun

variable (M) in
/-- Every step of a run meets a condition on the state before it. -/
def Meets (P : S → L → Prop) : S → List L → Prop
  | _, [] => True
  | s, l :: ls => P s l ∧ ∀ s', M.step s l = some s' → Meets P s' ls

/-- A condition that can be checked at each step can be checked along a run. -/
instance decidableMeets {P : S → L → Prop} [∀ s l, Decidable (P s l)] :
    ∀ s ls, Decidable (M.Meets P s ls)
  | _, [] => inferInstanceAs (Decidable True)
  | s, l :: ls =>
    match hs : M.step s l with
    | none => decidable_of_iff (P s l) ⟨fun h => ⟨h, by simp [hs]⟩, fun h => h.1⟩
    | some t =>
      have : Decidable (M.Meets P t ls) := decidableMeets t ls
      decidable_of_iff (P s l ∧ M.Meets P t ls)
        ⟨fun h => ⟨h.1, fun s' h' => Option.some.inj (hs.symm.trans h') ▸ h.2⟩,
          fun h => ⟨h.1, h.2 t hs⟩⟩

theorem run_invariant_of_meets {I : S → Prop} {P : S → L → Prop}
    (hstep : ∀ s l s', I s → P s l → M.step s l = some s' → I s') {s s' : S} {ls : List L}
    (hs : I s) (hls : M.Meets P s ls) (h : M.run s ls = some s') : I s' := by
  induction ls generalizing s with
  | nil => cases h; exact hs
  | cons l ls ih =>
    obtain ⟨t, ht, hrun⟩ := run_cons_eq_some.1 h
    exact ih (hstep s l t hs hls.1 ht) (hls.2 t ht) hrun

variable (M) in
/-- What is seen of the steps of a run, in order. -/
def observe {O : Type*} (seen : S → L → List O) : S → List L → List O
  | _, [] => []
  | s, l :: ls => seen s l ++ match M.step s l with
    | some t => observe seen t ls
    | none => []

theorem forall_observe {O : Type*} {seen : S → L → List O} {P : O → Prop}
    (h : ∀ s l, ∀ x ∈ seen s l, P x) (s : S) (ls : List L) : ∀ x ∈ M.observe seen s ls, P x := by
  induction ls generalizing s with
  | nil => exact fun x hx => nomatch hx
  | cons l ls ih =>
    intro x hx
    rw [observe] at hx
    rcases List.mem_append.1 hx with hx | hx
    · exact h s l x hx
    · cases ht : M.step s l with
      | none => simp [ht] at hx
      | some t =>
        rw [ht] at hx
        exact ih t x hx

theorem isChain_observe {O : Type*} {seen : S → L → List O} {R : O → O → Prop} {A : O → S → Prop}
    (hone : ∀ s l, (seen s l).length ≤ 1)
    (hafter : ∀ s l s', M.step s l = some s' → ∀ x ∈ seen s l, A x s')
    (hkeep : ∀ s l s', M.step s l = some s' → seen s l = [] → ∀ x, A x s → A x s')
    (hR : ∀ s l x y, A x s → y ∈ seen s l → R x y) (s : S) (ls : List L) :
    (M.observe seen s ls).IsChain R := by
  suffices h : ∀ ls s (o : Option O), (∀ x ∈ o, A x s) →
      (o.toList ++ M.observe seen s ls).IsChain R by
    simpa using h ls s none (by simp)
  intro ls
  induction ls with
  | nil =>
    rintro s (_ | x) -
    · exact .nil
    · exact .singleton x
  | cons l ls ih =>
    intro s o ho
    rw [observe]
    -- what follows if `o` was seen last
    have hrest : ∀ o : Option O, (∀ t, M.step s l = some t → ∀ x ∈ o, A x t) →
        (o.toList ++ match M.step s l with
          | some t => M.observe seen t ls
          | none => []).IsChain R := by
      intro o ho
      cases ht : M.step s l with
      | none => cases o <;> simp
      | some t => exact ih t o (ho t ht)
    match hseen : seen s l with
    | [] => exact hrest o fun t ht x hx => hkeep s l t ht hseen x (ho x hx)
    | [y] =>
      have hy : y ∈ seen s l := by rw [hseen]; exact List.mem_singleton_self y
      have hchain := hrest (some y) fun t ht x hx => Option.some.inj hx ▸ hafter s l t ht y hy
      cases o with
      | none => exact hchain
      | some x => exact .cons_cons (hR s l x y (ho x rfl) hy) hchain
    | _ :: _ :: _ => exact absurd (hone s l) (by simp [hseen])

variable (M) in
/-- A property holds in every state of a run. -/
def Along (P : S → Prop) : S → List L → Prop
  | s, [] => P s
  | s, l :: ls => P s ∧ ∀ s', M.step s l = some s' → Along P s' ls

theorem Along.head {P : S → Prop} {s : S} {ls : List L} (h : M.Along P s ls) : P s := by
  cases ls with
  | nil => exact h
  | cons l ls => exact h.1

theorem along_congr {I P Q : S → Prop} (hstep : ∀ s l s', I s → M.step s l = some s' → I s')
    (hPQ : ∀ s, I s → (P s ↔ Q s)) {s : S} (hs : I s) (ls : List L) :
    M.Along P s ls ↔ M.Along Q s ls := by
  induction ls generalizing s with
  | nil => exact hPQ s hs
  | cons l ls ih =>
    exact and_congr (hPQ s hs) (forall₂_congr fun s' h => ih (hstep s l s' hs h))

theorem along_of_meets {I Q : S → Prop} {P : S → L → Prop}
    (hstep : ∀ s l s', I s → P s l → M.step s l = some s' → I s') (hQ : ∀ s, I s → Q s) {s : S}
    {ls : List L} (hs : I s) (hls : M.Meets P s ls) : M.Along Q s ls := by
  induction ls generalizing s with
  | nil => exact hQ s hs
  | cons l ls ih =>
    exact ⟨hQ s hs, fun s' h => ih (hstep s l s' hs hls.1 h) (hls.2 s' h)⟩

/-- **Exactly when.**  If a step that meets a condition keeps the invariant, and one that does not
breaks a property that the invariant gives, the property holds along a run exactly if every step
meets the condition. -/
theorem along_iff_meets {I Q : S → Prop} {A : L → Prop} {P : S → L → Prop}
    (hkeep : ∀ s l s', I s → A l → P s l → M.step s l = some s' → I s')
    (hbreak : ∀ s l s', I s → A l → ¬ P s l → M.step s l = some s' → ¬ Q s')
    (hQ : ∀ s, I s → Q s) {s s' : S} {ls : List L} (hs : I s) (hls : ∀ l ∈ ls, A l)
    (hrun : M.run s ls = some s') : M.Along Q s ls ↔ M.Meets P s ls := by
  induction ls generalizing s with
  | nil => exact ⟨fun _ => trivial, fun _ => hQ s hs⟩
  | cons l ls ih =>
    obtain ⟨t, ht, hrun⟩ := run_cons_eq_some.1 hrun
    have hl := hls l List.mem_cons_self
    have hrest : I t → (M.Along Q t ls ↔ M.Meets P t ls) := fun hI =>
      ih hI (fun l' hl' => hls l' (List.mem_cons_of_mem _ hl')) hrun
    constructor
    · rintro ⟨-, halong⟩
      have hP : P s l := by
        by_contra hP
        exact hbreak s l t hs hl hP ht (halong t ht).head
      refine ⟨hP, fun u hu => ?_⟩
      obtain rfl := Option.some.inj (ht.symm.trans hu)
      exact (hrest (hkeep s l t hs hl hP ht)).1 (halong t ht)
    · rintro ⟨hP, hmeets⟩
      refine ⟨hQ s hs, fun u hu => ?_⟩
      obtain rfl := Option.some.inj (ht.symm.trans hu)
      exact (hrest (hkeep s l t hs hl hP ht)).2 (hmeets t ht)

theorem meets_of_invariant {I : S → Prop} {P : S → L → Prop}
    (hstep : ∀ s l s', I s → M.step s l = some s' → I s') (hP : ∀ s l, I s → P s l) {s : S}
    {ls : List L} (hs : I s) : M.Meets P s ls := by
  induction ls generalizing s with
  | nil => trivial
  | cons l ls ih => exact ⟨hP s l hs, fun s' h => ih (hstep s l s' hs h)⟩

/-- In runs that meet a condition, another condition that follows from it in the states of an
invariant is met. -/
theorem meets_of_meets {I : S → Prop} {A P : S → L → Prop}
    (hstep : ∀ s l s', I s → A s l → M.step s l = some s' → I s') (hP : ∀ s l, I s → A s l → P s l)
    {s : S} {ls : List L} (hs : I s) (hls : M.Meets A s ls) : M.Meets P s ls := by
  induction ls generalizing s with
  | nil => trivial
  | cons l ls ih =>
    exact ⟨hP s l hs hls.1, fun s' h => ih (hstep s l s' hs hls.1 h) (hls.2 s' h)⟩

theorem Meets.last {P : S → L → Prop} {s s' : S} {ls : List L} {l : L}
    (h : M.Meets P s (ls ++ [l])) (hrun : M.run s ls = some s') : P s' l := by
  induction ls generalizing s with
  | nil =>
    cases hrun
    exact h.1
  | cons l' ls ih =>
    obtain ⟨t, ht, hrun⟩ := run_cons_eq_some.1 hrun
    exact ih (h.2 t ht) hrun

/-- Conditions that agree in the states of an invariant are met by the same runs. -/
theorem meets_congr {I : S → Prop} {P Q : S → L → Prop}
    (hstep : ∀ s l s', I s → M.step s l = some s' → I s')
    (hPQ : ∀ s l, I s → (P s l ↔ Q s l)) {s : S}
    {ls : List L} (hs : I s) : M.Meets P s ls ↔ M.Meets Q s ls := by
  induction ls generalizing s with
  | nil => exact Iff.rfl
  | cons l ls ih =>
    exact and_congr (hPQ s l hs) (forall₂_congr fun s' h => ih (hstep s l s' hs h))

/-- **Exactly when**, in runs that meet a condition, also where a run ends early: if a step that
does not meet the second condition leads to a state without the property, the property holds along a
run exactly if every step meets it. -/
theorem along_iff_of_meets {I Q : S → Prop} {A P : S → L → Prop}
    (hkeep : ∀ s l s', I s → A s l → P s l → M.step s l = some s' → I s')
    (hbreak : ∀ s l, I s → A s l → ¬P s l → ∃ s', M.step s l = some s' ∧ ¬Q s')
    (hQ : ∀ s, I s → Q s) {s : S} {ls : List L} (hs : I s) (hls : M.Meets A s ls) :
    M.Along Q s ls ↔ M.Meets P s ls := by
  induction ls generalizing s with
  | nil => exact ⟨fun _ => trivial, fun _ => hQ s hs⟩
  | cons l ls ih =>
    obtain ⟨hA, hrest⟩ := hls
    constructor
    · rintro ⟨-, halong⟩
      have hP : P s l := by
        by_contra hP
        obtain ⟨s', hstep, hne⟩ := hbreak s l hs hA hP
        exact hne (halong s' hstep).head
      exact ⟨hP, fun s' h => (ih (hkeep s l s' hs hA hP h) (hrest s' h)).1 (halong s' h)⟩
    · rintro ⟨hP, hmeets⟩
      exact ⟨hQ s hs, fun s' h => (ih (hkeep s l s' hs hA hP h) (hrest s' h)).2 (hmeets s' h)⟩

end Machine

/-- A machine whose steps leave a record `R` for undoing them. -/
structure RevMachine (S L R : Type*) where
  /-- The forward step: the next state and the record. -/
  fwd : S → L → Option (S × R)
  /-- The reverse step. -/
  bwd : S → L → R → Option S

namespace RevMachine

variable {S L R : Type*} (M : RevMachine S L R)

/-- Run a list of labels, keeping the records in the order of the steps. -/
def runLog : S → List L → Option (S × List (L × R))
  | s, [] => some (s, [])
  | s, l :: ls => (M.fwd s l).bind fun x => (runLog x.1 ls).map fun y => (y.1, (l, x.2) :: y.2)

/-- Undo the steps of a log, the last one first. -/
def undoAll : S → List (L × R) → Option S
  | s, [] => some s
  | s, e :: log => (undoAll s log).bind fun s' => M.bwd s' e.1 e.2

variable {M}

theorem runLog_cons_eq_some {s s' : S} {l : L} {ls : List L} {log : List (L × R)} :
    M.runLog s (l :: ls) = some (s', log) ↔ ∃ t r log', M.fwd s l = some (t, r) ∧
      M.runLog t ls = some (s', log') ∧ log = (l, r) :: log' := by
  simp only [runLog, Option.bind_eq_some_iff, Option.map_eq_some_iff, Prod.exists, Prod.mk.injEq]
  constructor
  · rintro ⟨t, r, hf, u, log', hr, rfl, rfl⟩; exact ⟨t, r, log', hf, hr, rfl⟩
  · rintro ⟨t, r, log', hf, hr, rfl⟩; exact ⟨t, r, hf, s', log', hr, rfl, rfl⟩

/-- **Undoing a run.**  If the invariant is preserved and lets every step be undone from its
record, undoing the log of a run returns to the state the run started in. -/
theorem undoAll_runLog {I : S → Prop} {P : L → Prop}
    (hinv : ∀ s l s' r, I s → P l → M.fwd s l = some (s', r) → I s')
    (hrev : ∀ s l s' r, I s → P l → M.fwd s l = some (s', r) → M.bwd s' l r = some s)
    {s s' : S} {ls : List L} {log : List (L × R)} (hs : I s) (hls : ∀ l ∈ ls, P l)
    (h : M.runLog s ls = some (s', log)) : M.undoAll s' log = some s := by
  induction ls generalizing s log with
  | nil => cases h; rfl
  | cons l ls ih =>
    obtain ⟨t, r, log', hf, hrun, rfl⟩ := runLog_cons_eq_some.1 h
    have hl := hls l List.mem_cons_self
    have hu := ih (hinv s l t r hs hl hf) (fun l' hl' => hls l' (List.mem_cons_of_mem _ hl')) hrun
    rw [undoAll, hu]
    exact hrev s l t r hs hl hf

theorem runLog_invariant {I : S → Prop} {P : L → Prop}
    (hinv : ∀ s l s' r, I s → P l → M.fwd s l = some (s', r) → I s')
    {s s' : S} {ls : List L} {log : List (L × R)} (hs : I s) (hls : ∀ l ∈ ls, P l)
    (h : M.runLog s ls = some (s', log)) : I s' := by
  induction ls generalizing s log with
  | nil => cases h; exact hs
  | cons l ls ih =>
    obtain ⟨t, r, log', hf, hrun, rfl⟩ := runLog_cons_eq_some.1 h
    exact ih (hinv s l t r hs (hls l List.mem_cons_self) hf)
      (fun l' hl' => hls l' (List.mem_cons_of_mem _ hl')) hrun

end RevMachine

end CodesSim
