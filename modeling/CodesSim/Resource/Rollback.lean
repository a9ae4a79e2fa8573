import CodesSim.Resource.WakeUp
import Mathlib.Tactic.Linarith

/-!
# Undoing an event of the resource LP

The reverse handlers of the resource LP, after the handlers.  While no more units are given back
than were obtained, every event is undone, with two exceptions (`resource_undone_iff`).

* Units that were given back are taken again by `resource_get`, which lowers the least that was
  available at any time.  Where less is available than this least value says, it does not come back.
  A reservation leaves the general pool in such a state, for it takes units without a note of it.
* The ninth reservation is written behind the arrays.
-/

namespace CodesSim.Resource

open Function Outcome

/-! ### Units that are out -/

/-- The units that a caller gets, or gives back. -/
def Entry.units : Entry → ℤ
  | .queued _ => 0
  | .served p => p.req.toNat
  | .direct p => p.req.toNat
  | .freed p => -p.req.toNat

/-- The units of a pool that callers have. -/
def unitsOut (l : List Entry) : ℤ := (l.map Entry.units).sum

@[simp] theorem unitsOut_nil : unitsOut [] = 0 := rfl

@[simp] theorem unitsOut_append (l : List Entry) (y : Entry) :
    unitsOut (l ++ [y]) = unitsOut l + y.units := by
  simp [unitsOut]

/-- The units of a pool are there or with callers. -/
structure Books (num t : ℕ) (avail max : UInt64) (log : List Entry) : Prop where
  nonneg : 0 ≤ unitsOut log
  balance : t ≤ num → (avail.toNat : ℤ) + unitsOut log = max.toNat
  beyond : num < t → unitsOut log = 0

namespace Books

variable {num t : ℕ} {avail max req : UInt64} {log : List Entry} {y : Entry}

theorem init : Books num t avail avail [] where
  nonneg := le_refl 0
  balance _ := by simp
  beyond _ := rfl

section

variable (h : Books num t avail max log)
include h

theorem noted (hy : y.units = 0) : Books num t avail max (log ++ [y]) where
  nonneg := by simpa [hy] using h.nonneg
  balance ht := by simpa [hy] using h.balance ht
  beyond ht := by simpa [hy] using h.beyond ht

theorem take (ht : t ≤ num) (hreq : req ≤ avail)
    (hy : y.units = req.toNat) : Books num t (avail - req) max (log ++ [y]) where
  nonneg := by
    have := h.nonneg
    rw [unitsOut_append, hy]
    omega
  balance _ := by
    have := h.balance ht
    rw [unitsOut_append, hy, UInt64.toNat_sub_of_le _ _ hreq]
    have := UInt64.le_iff_toNat_le.1 hreq
    omega
  beyond hlt := absurd hlt (Nat.not_lt.2 ht)

/-- What callers have fits into the pool. -/
theorem room (ht : t ≤ num)
    (hreq : (req.toNat : ℤ) ≤ unitsOut log) : (avail + req).toNat = avail.toNat + req.toNat ∧
      avail.toNat + req.toNat ≤ max.toNat := by
  have := h.balance ht
  have hle : avail.toNat + req.toNat ≤ max.toNat := by omega
  refine ⟨?_, hle⟩
  rw [UInt64.toNat_add]
  exact Nat.mod_eq_of_lt (Nat.lt_of_le_of_lt hle max.toNat_lt)

theorem give (ht : t ≤ num) (hreq : (req.toNat : ℤ) ≤ unitsOut log) (hy : y.units = -req.toNat) :
    Books num t (avail + req) max (log ++ [y]) where
  nonneg := by
    rw [unitsOut_append, hy]
    omega
  balance _ := by
    have := h.balance ht
    rw [unitsOut_append, hy, (h.room ht hreq).1]
    omega
  beyond hlt := absurd hlt (Nat.not_lt.2 ht)

/-- The general pool gives units to a new one. -/
theorem part (ht : t ≤ num) (hreq : req ≤ avail) :
    Books (num + 1) t (avail - req) (max - req) log where
  nonneg := h.nonneg
  balance _ := by
    have hbal := h.balance ht
    have hnonneg := h.nonneg
    have hle := UInt64.le_iff_toNat_le.1 hreq
    have hmax : req ≤ max := UInt64.le_iff_toNat_le.2 (by omega)
    rw [UInt64.toNat_sub_of_le _ _ hreq, UInt64.toNat_sub_of_le _ _ hmax]
    omega
  beyond hlt := absurd hlt (by omega)

end

theorem new (h : Books num (num + 1) avail max log) : Books (num + 1) (num + 1) req req log where
  nonneg := h.nonneg
  balance _ := by rw [h.beyond (Nat.lt_succ_self _), add_zero]
  beyond hlt := absurd hlt (Nat.lt_irrefl _)

/-- Another pool is new. -/
theorem succ (h : Books num t avail max log) (ht : t ≠ num + 1) :
    Books (num + 1) t avail max log where
  nonneg := h.nonneg
  balance hle := h.balance (by omega)
  beyond hlt := h.beyond (by omega)

end Books

/-- **The invariant** while no more is given back than was obtained. -/
structure Sys.Solvent (x : Sys) : Prop where
  inv : x.Inv
  tokens : x.s.r.numTokens ≤ maxReserve
  books : ∀ t, Books x.s.r.numTokens t (x.s.r.avail t) (x.s.r.max t) (x.log t)

/-- Nobody gives back more than what is out. -/
def FreesObtained (x : Sys) (m : Msg) : Prop :=
  m.eventType = .free → (m.i.req.toNat : ℤ) ≤ unitsOut (x.log m.i.tok)

instance (x : Sys) (m : Msg) : Decidable (FreesObtained x m) := by
  unfold FreesObtained
  infer_instance

/-- The condition on a run. -/
def FreesObtainedAt (x : Sys) (l : Label) : Prop := FreesObtained x l.msg

instance (x : Sys) (l : Label) : Decidable (FreesObtainedAt x l) := by
  unfold FreesObtainedAt
  infer_instance

section Steps

variable {self : Lpid} {x : Sys} {m : Msg} {e : Ev} {flying : List ℕ}

theorem Sys.init_solvent (avail : UInt64) : (Sys.init avail).Solvent where
  inv := Sys.init_inv avail
  tokens := Nat.zero_le _
  books _ := Books.init

theorem books_after (h : ∀ t, Books x.s.r.numTokens t (x.s.r.avail t) (x.s.r.max t) (x.log t))
    (hframe : ∀ t ≠ m.i.tok, e.s.r.avail t = x.s.r.avail t) (hmax : e.s.r.max = x.s.r.max)
    (hnum : e.s.r.numTokens = x.s.r.numTokens)
    (htok : Books x.s.r.numTokens m.i.tok (e.s.r.avail m.i.tok) (x.s.r.max m.i.tok)
      (x.log m.i.tok ++ entries m e)) (t : ℕ) :
    Books (x.after flying m e).s.r.numTokens t ((x.after flying m e).s.r.avail t)
      ((x.after flying m e).s.r.max t) ((x.after flying m e).log t) := by
  simp only [Sys.after, hnum, hmax]
  by_cases ht : t = m.i.tok
  · rw [ht, update_self]
    exact htok
  · rw [hframe t ht, update_of_ne ht]
    exact h t

theorem Sys.Solvent.get (h : x.Solvent) (hm : m.eventType = .get)
    (hok : handleResourceGet self (Ev.start x.s m) = .ok e) : (x.after x.flying m e).Solvent := by
  have hbooks := h.books m.i.tok
  refine ⟨h.inv.get hm hok, ?_, ?_⟩
  all_goals obtain ⟨htok, ⟨-, -, rfl⟩ | ⟨-, -, rfl⟩ | ⟨hp, havail, -, rfl⟩⟩ := get_cases hok
  any_goals exact h.tokens
  · refine books_after h.books (fun _ _ => rfl) rfl rfl ?_
    simpa [entries, hm, State.setPending] using hbooks.noted (y := .queued m.i) rfl
  · refine books_after h.books (fun _ _ => rfl) rfl rfl ?_
    simpa [entries, hm, CbParams.answer, State.draw] using hbooks
  · refine books_after h.books (fun _ ht => update_of_ne ht _ _) rfl rfl ?_
    simpa [entries, hm, CbParams.answer, State.draw, State.setR, Res.take]
      using hbooks.take htok havail (y := .direct m.i) rfl

theorem Sys.Solvent.free (h : x.Solvent) (hm : m.eventType = .free) (hfree : FreesObtained x m)
    (hok : handleResourceFree (Ev.start x.s m) = .ok e) : (x.after x.flying m e).Solvent := by
  have hbooks := h.books m.i.tok
  refine ⟨h.inv.free hm hok, ?_, ?_⟩
  all_goals obtain ⟨htok, rfl⟩ := free_cases hok
  · exact h.tokens
  · refine books_after h.books (fun _ ht => update_of_ne ht _ _) rfl rfl ?_
    simpa [entries, hm, State.draw, State.setR, Res.give]
      using hbooks.give htok (hfree hm) (y := .freed m.i) rfl

theorem Sys.Solvent.deq (h : x.Solvent) (hm : m.eventType = .deq)
    (hfly : ∀ t ≠ m.i.tok, t ∈ x.flying → t ∈ flying)
    (hok : handleResourceDeq self (Ev.start x.s m) = .ok e) : (x.after flying m e).Solvent := by
  have hbooks := h.books m.i.tok
  refine ⟨h.inv.deq hm hfly hok, ?_, ?_⟩
  all_goals obtain ⟨hp, rfl⟩ | ⟨p, rest, hp, htok, -, ⟨hlt, rfl⟩ | ⟨havail, -, rfl⟩⟩ :=
    deq_cases hok
  any_goals exact h.tokens
  · refine books_after h.books (fun _ _ => rfl) rfl rfl ?_
    simpa [entries, hm] using hbooks
  · refine books_after h.books (fun _ _ => rfl) rfl rfl ?_
    simpa [entries, hm] using hbooks
  · have hptok : p.tok = m.i.tok := (h.inv m.i.tok).tok p (by simp [hp])
    rw [hptok] at havail
    refine books_after h.books (fun _ ht => update_of_ne (by rwa [hptok]) _ _) rfl rfl ?_
    simpa [entries, hm, State.draw, State.setR, State.setPending, Res.take, hptok]
      using hbooks.take htok havail (y := .served p) rfl

theorem Sys.Solvent.reserve (h : x.Solvent) (hm : m.eventType = .reserve)
    (hok : handleResourceReserve self (Ev.start x.s m) = .ok e) :
    (x.after x.flying m e).Solvent := by
  refine ⟨h.inv.reserve hm hok, ?_, ?_⟩
  all_goals obtain ⟨hnum, havail, rfl⟩ := reserve_cases hok
  · exact hnum
  · intro t
    have hbooks := h.books t
    rw [Sys.after_log hm]
    simp only [Sys.after, State.draw, State.setR, Res.addPool]
    by_cases h0 : t = 0
    · rw [h0, update_self, update_self]
      exact (h.books 0).part (Nat.zero_le _) havail
    rw [update_of_ne h0, update_of_ne h0]
    by_cases hnew : t = x.s.r.numTokens + 1
    · rw [hnew, update_self, update_self]
      exact (h.books _).new
    · rw [update_of_ne hnew, update_of_ne hnew]
      exact hbooks.succ hnew

theorem Sys.Solvent.step (h : x.Solvent) {l : Label} {x' : Sys} (hfree : FreesObtained x l.msg)
    (hstep : x.step self l = some x') : x'.Solvent := by
  obtain ⟨flying, e, rfl, hok, hfly, hmem, -⟩ := Sys.step_cases hstep
  unfold resourceEventHandler at hok
  cases hm : l.msg.eventType with
  | deq => exact h.deq hm hmem (by simpa only [hm] using hok)
  | get =>
    rw [hfly (by simp [hm])]
    exact h.get hm (by simpa only [hm] using hok)
  | free =>
    rw [hfly (by simp [hm])]
    exact h.free hm hfree (by simpa only [hm] using hok)
  | reserve =>
    rw [hfly (by simp [hm])]
    exact h.reserve hm (by simpa only [hm] using hok)

end Steps

/-! ### Undoing -/

/-- What the reverse of an event has to bring back. -/
structure Restored (s s' : State) : Prop where
  numTokens : s'.r.numTokens = s.r.numTokens
  avail : ∀ t ≤ s.r.numTokens, s'.r.avail t = s.r.avail t
  max : ∀ t ≤ s.r.numTokens, s'.r.max t = s.r.max t
  minAvail : ∀ t ≤ s.r.numTokens, s'.r.minAvail t = s.r.minAvail t
  pending : s'.pending = s.pending
  draws : s'.draws = s.draws

/-- An event writes within the arrays, and after the event and its reverse everything is back.
There is nothing to undo of an event in which an assertion fails. -/
def Undone (self : Lpid) (s : State) (m : Msg) : Prop :=
  resourceEventHandler self s m ≠ .error .outOfBounds ∧
    ∀ e, resourceEventHandler self s m = .ok e →
      ∃ s', resourceRevHandler e.s e.b e.m = .ok s' ∧ Restored s s'

/-- The events that are not undone. -/
def Lost (s : State) (m : Msg) : Prop :=
  m.eventType = .free ∧ m.i.tok ≤ s.r.numTokens ∧ s.r.avail m.i.tok < s.r.minAvail m.i.tok ∨
    m.eventType = .reserve ∧ s.r.numTokens = maxReserve ∧ m.i.req ≤ s.r.avail 0

section Undo

variable {self : Lpid} {s s' : State} {m : Msg} {e : Ev} {r : Res} {req : UInt64} {tok : ℕ}

theorem Restored.refl (s : State) : Restored s s :=
  ⟨rfl, fun _ _ => rfl, fun _ _ => rfl, fun _ _ => rfl, rfl, rfl⟩

/-- Units that were taken are put back, and the minimum with them. -/
theorem unget_take (hr : s.r = r.take req tok) (htok : tok ≤ r.numTokens) :
    unget tok (r.minAvail tok) req tok s = .ok (s.setR r) := by
  have hnum : s.r.numTokens = r.numTokens := by rw [hr]; rfl
  unfold unget resourceRestoreMinAvail
  rw [if_neg (by omega)]
  simp only [resourceFree, hnum, gt_iff_lt, if_neg (Nat.not_lt.2 htok)]
  simp [hr, Res.take]

@[simp] theorem draw_draw (n k : ℤ) : (s.draw n).draw k = s.draw (n + k) := by
  simp [State.draw, add_assoc]

@[simp] theorem draw_zero : s.draw 0 = s := by simp [State.draw]

theorem get_undone (h : handleResourceGet self (Ev.start s m) = .ok e) :
    handleResourceGetRc e.s e.b e.m = .ok s := by
  obtain ⟨htok, ⟨-, -, rfl⟩ | ⟨-, -, rfl⟩ | ⟨-, -, -, rfl⟩⟩ := get_cases h
  · simp [handleResourceGetRc, State.setPending]
  · simp [handleResourceGetRc]
  · have hunget := unget_take (s := ((s.setR (s.r.take m.i.req m.i.tok)).draw 1).draw (-1)) rfl htok
    simpa [handleResourceGetRc, Msg.saveMin, State.setR] using hunget

theorem deq_undone (htok : ∀ p ∈ s.pending m.i.tok, p.tok = m.i.tok)
    (h : handleResourceDeq self (Ev.start s m) = .ok e) :
    handleResourceDeqRc e.s e.b e.m = .ok s := by
  obtain ⟨hp, rfl⟩ | ⟨p, rest, hp, hle, -, ⟨hlt, rfl⟩ | ⟨havail, -, rfl⟩⟩ := deq_cases h
  · rfl
  · rfl
  · have hptok := htok p (by simp [hp])
    simp only [hptok]
    let u := (((((s.setR (s.r.take p.req m.i.tok)).setPending m.i.tok rest).draw 1).draw
      1).setPending m.i.tok (p :: rest)).draw (-1)
    have hunget : unget m.i.tok (s.r.minAvail m.i.tok) p.req m.i.tok u = .ok (u.setR s.r) :=
      unget_take rfl hle
    simp only [u, handleResourceDeqRc, Msg.saveMin, Msg.saveRequest, hptok, State.setPending,
      State.draw, update_self, Bool.false_eq_true, if_false, if_true] at hunget ⊢
    rw [hunget]
    simp [Except.bind, State.setR, ← hp]

theorem min_eq_right_iff_not_lt {a b : UInt64} : min a b = b ↔ ¬a < b := by
  rw [UInt64.not_lt]
  change (if a ≤ b then a else b) = b ↔ b ≤ a
  split_ifs with hle
  · exact ⟨fun h => h ▸ UInt64.le_refl _, fun h => UInt64.le_antisymm hle h⟩
  · exact ⟨fun _ => UInt64.le_of_lt (UInt64.not_le.1 hle), fun _ => rfl⟩

/-- **Units that were given back** are taken again; the minimum stands only if it was not above what
is available. -/
theorem free_undone_iff (hfits : (s.r.avail m.i.tok + m.i.req).toNat =
      (s.r.avail m.i.tok).toNat + m.i.req.toNat)
    (hmax : (s.r.avail m.i.tok).toNat + m.i.req.toNat ≤ (s.r.max m.i.tok).toNat)
    (h : handleResourceFree (Ev.start s m) = .ok e) :
    (∃ s', handleResourceFreeRc e.s e.m = .ok s' ∧ Restored s s') ↔
      ¬s.r.avail m.i.tok < s.r.minAvail m.i.tok := by
  obtain ⟨htok, rfl⟩ := free_cases h
  have hget : resourceGet m.i.req m.i.tok (s.r.give m.i.req m.i.tok) =
      (0, (s.r.give m.i.req m.i.tok).take m.i.req m.i.tok) := by
    refine resourceGet_of_fits htok ?_ ?_
    · refine UInt64.le_iff_toNat_le.2 ?_
      simp only [Res.give, update_self]
      omega
    · refine UInt64.le_iff_toNat_le.2 ?_
      simp only [Res.give]
      omega
  have hundo : handleResourceFreeRc ((s.setR (s.r.give m.i.req m.i.tok)).draw 1) m =
      .ok (s.setR ((s.r.give m.i.req m.i.tok).take m.i.req m.i.tok)) := by
    simp [handleResourceFreeRc, State.setR, State.draw, hget]
  simp only [hundo, Except.ok.injEq, exists_eq_left']
  have hcancel : s.r.avail m.i.tok + m.i.req - m.i.req = s.r.avail m.i.tok :=
    UInt64.add_sub_cancel _ _
  constructor
  · intro hr hlt
    have hmin := hr.minAvail m.i.tok htok
    simp only [State.setR, Res.take, Res.give, update_self, hcancel] at hmin
    exact min_eq_right_iff_not_lt.1 hmin hlt
  · intro hge
    refine ⟨rfl, fun t _ => ?_, fun _ _ => rfl, fun t _ => ?_, rfl, rfl⟩
    · simp [State.setR, Res.take, Res.give]
    · simp only [State.setR, Res.take, Res.give, update_self, hcancel]
      rw [min_eq_right_iff_not_lt.2 hge, update_eq_self]

theorem reserve_undone (h : handleResourceReserve self (Ev.start s m) = .ok e) :
    Restored s (handleResourceReserveRc e.s e.m) := by
  obtain ⟨-, -, rfl⟩ := reserve_cases h
  have hne {t : ℕ} (ht : t ≤ s.r.numTokens) : t ≠ s.r.numTokens + 1 := by omega
  refine ⟨rfl, fun t ht => ?_, fun t ht => ?_, fun t ht => ?_, rfl, ?_⟩
  · by_cases h0 : t = 0
    · simp [handleResourceReserveRc, State.draw, State.setR, Res.addPool, h0]
    · simp [handleResourceReserveRc, State.draw, State.setR, Res.addPool, h0, hne ht]
  · by_cases h0 : t = 0
    · simp [handleResourceReserveRc, State.draw, State.setR, Res.addPool, h0]
    · simp [handleResourceReserveRc, State.draw, State.setR, Res.addPool, h0, hne ht]
  · exact update_of_ne (hne ht) _ _
  · simp [handleResourceReserveRc, State.draw, State.setR]

/-! ### What is written behind the arrays -/

theorem response_within {cb : CbParams} {ret : ℤ} :
    resourceResponse self cb ret tok e ≠ .error .outOfBounds := by
  unfold resourceResponse
  split_ifs <;> simp

theorem get_within (e : Ev) : handleResourceGet self e ≠ .error .outOfBounds := by
  intro h
  unfold handleResourceGet at h
  split at h
  · cases h
  unfold settleGet answerGet at h
  dsimp only at h
  split_ifs at h
  all_goals first
    | cases h
    | exact response_within (map_eq_error h)

theorem free_within (e : Ev) : handleResourceFree e ≠ .error .outOfBounds := by
  unfold handleResourceFree
  dsimp only
  split_ifs <;> simp

theorem deq_within (e : Ev) : handleResourceDeq self e ≠ .error .outOfBounds := by
  intro h
  unfold handleResourceDeq at h
  split at h
  · cases h
  split at h
  · cases h
  dsimp only at h
  split_ifs at h
  all_goals first
    | cases h
    | exact response_within (map_eq_error h)

theorem reserve_within_iff (hnum : s.r.numTokens ≤ maxReserve) :
    handleResourceReserve self (Ev.start s m) ≠ .error .outOfBounds ↔
      ¬(s.r.numTokens = maxReserve ∧ m.i.req ≤ s.r.avail 0) := by
  unfold handleResourceReserve resourceReserve
  simp only [Ev.start, gt_iff_lt, if_neg (Nat.not_lt.2 hnum)]
  by_cases havail : m.i.req ≤ s.r.avail 0
  · rw [if_neg (UInt64.not_lt.2 havail)]
    by_cases hlast : s.r.numTokens = maxReserve
    · rw [if_pos (by omega)]
      simp [hlast, havail]
    · rw [if_neg (by omega)]
      simp [hlast, response_within]
  · rw [if_pos (UInt64.not_le.1 havail)]
    simp [havail]

end Undo

/-! ### All events -/

section Iff

variable {self : Lpid} {x : Sys} {m : Msg}

theorem undone_of_eq {s : State} (hwithin : resourceEventHandler self s m ≠ .error .outOfBounds)
    (h : ∀ e, resourceEventHandler self s m = .ok e → resourceRevHandler e.s e.b e.m = .ok s) :
    Undone self s m :=
  ⟨hwithin, fun e he => ⟨s, h e he, Restored.refl s⟩⟩

theorem Sys.Solvent.undone_free_iff (h : x.Solvent) (hm : m.eventType = .free)
    (hfree : FreesObtained x m) : Undone self x.s m ↔ ¬Lost x.s m := by
  have hfwd : resourceEventHandler self x.s m = handleResourceFree (Ev.start x.s m) := by
    simp only [resourceEventHandler, hm]
  have hlost : Lost x.s m ↔
      m.i.tok ≤ x.s.r.numTokens ∧ x.s.r.avail m.i.tok < x.s.r.minAvail m.i.tok := by
    simp [Lost, hm]
  unfold Undone
  rw [hfwd, hlost, and_iff_right (free_within _)]
  by_cases htok : m.i.tok ≤ x.s.r.numTokens
  · obtain ⟨hfits, hmax⟩ := (h.books m.i.tok).room htok (hfree hm)
    have hrev (e : Ev) (he : handleResourceFree (Ev.start x.s m) = .ok e) :
        resourceRevHandler e.s e.b e.m = handleResourceFreeRc e.s e.m := by
      obtain ⟨-, rfl⟩ := free_cases he
      simp only [resourceRevHandler, hm]
    have hok : ∃ e, handleResourceFree (Ev.start x.s m) = .ok e := by
      unfold handleResourceFree resourceFree
      simp [Ev.start, Nat.not_lt.2 htok]
    obtain ⟨e, he⟩ := hok
    simp only [he, Except.ok.injEq, forall_eq', hrev e he, free_undone_iff hfits hmax he, htok,
      true_and]
  · refine ⟨fun _ hl => htok hl.1, fun _ e he => ?_⟩
    exact absurd (free_cases he).1 htok

theorem Sys.Solvent.undone_reserve_iff (h : x.Solvent) (hm : m.eventType = .reserve) :
    Undone self x.s m ↔ ¬Lost x.s m := by
  have hfwd : resourceEventHandler self x.s m = handleResourceReserve self (Ev.start x.s m) := by
    simp only [resourceEventHandler, hm]
  have hlost : Lost x.s m ↔ x.s.r.numTokens = maxReserve ∧ m.i.req ≤ x.s.r.avail 0 := by
    simp [Lost, hm]
  unfold Undone
  rw [hfwd, hlost, reserve_within_iff h.tokens, and_iff_left_iff_imp]
  intro _ e he
  refine ⟨_, ?_, reserve_undone he⟩
  obtain ⟨-, -, rfl⟩ := reserve_cases he
  simp only [resourceRevHandler, hm]

theorem Sys.Solvent.rolledBack_iff (h : x.Solvent) (hfree : FreesObtained x m) :
    Undone self x.s m ↔ ¬Lost x.s m := by
  cases hm : m.eventType with
  | free => exact h.undone_free_iff hm hfree
  | reserve => exact h.undone_reserve_iff hm
  | get =>
    have hfwd : resourceEventHandler self x.s m = handleResourceGet self (Ev.start x.s m) := by
      simp only [resourceEventHandler, hm]
    refine iff_of_true (undone_of_eq ?_ fun e he => ?_) (by simp [Lost, hm])
    · rw [hfwd]
      exact get_within _
    · rw [hfwd] at he
      have hevent : e.m.eventType = .get := by
        obtain ⟨-, ⟨-, -, rfl⟩ | ⟨-, -, rfl⟩ | ⟨-, -, -, rfl⟩⟩ := get_cases he <;> exact hm
      simpa only [resourceRevHandler, hevent] using get_undone he
  | deq =>
    have hfwd : resourceEventHandler self x.s m = handleResourceDeq self (Ev.start x.s m) := by
      simp only [resourceEventHandler, hm]
    refine iff_of_true (undone_of_eq ?_ fun e he => ?_) (by simp [Lost, hm])
    · rw [hfwd]
      exact deq_within _
    · rw [hfwd] at he
      have hevent : e.m.eventType = .deq := by
        obtain ⟨-, rfl⟩ | ⟨p, rest, -, -, -, ⟨-, rfl⟩ | ⟨-, -, rfl⟩⟩ := deq_cases he <;> exact hm
      simpa only [resourceRevHandler, hevent] using deq_undone (h.inv m.i.tok).tok he

end Iff

/-- **Undoing an event.**  After every run in which no more units are given back than were obtained,
an event is undone by its reverse handler, unless units come back to a pool that has fewer than its
minimum says, or it is the ninth reservation. -/
theorem resource_undone_iff (self : Lpid) (avail : UInt64) (ls : List Label) (x : Sys)
    (hfrees : (machine self).Meets FreesObtainedAt (Sys.init avail) ls)
    (hrun : (machine self).run (Sys.init avail) ls = some x) (m : Msg) (hfree : FreesObtained x m) :
    Undone self x.s m ↔ ¬Lost x.s m := by
  have hsolvent : x.Solvent := Machine.run_invariant_of_meets
    (fun _ _ _ hx hl hstep => hx.step hl hstep) (Sys.init_solvent avail) hfrees hrun
  exact hsolvent.rolledBack_iff hfree

/-- Of 100 units 10 are taken, and 40 are reserved. -/
def reservedAfterGet : List Label :=
  [.event (callerMsg .get 10 0 false), .event (callerMsg .reserve 40 0 false)]

/-- When the 10 units come back, 50 are available, and 90 was the least so far. -/
theorem resource_undone_iff_reservedAfterGet : ∃ x,
    (machine 7).run (Sys.init 100) reservedAfterGet = some x ∧
      (Undone 7 x.s (callerMsg .free 10 0 false) ↔ ¬Lost x.s (callerMsg .free 10 0 false)) :=
  ⟨_, rfl, resource_undone_iff 7 100 reservedAfterGet _ (by decide) rfl _ (by decide)⟩

/-- The minimum does not come back. -/
theorem minAvail_lost : ∃ x, (machine 7).Meets FreesObtainedAt (Sys.init 100) reservedAfterGet ∧
    (machine 7).run (Sys.init 100) reservedAfterGet = some x ∧
      FreesObtained x (callerMsg .free 10 0 false) ∧
        ¬Undone 7 x.s (callerMsg .free 10 0 false) := by
  refine ⟨_, by decide, rfl, by decide, fun h => ?_⟩
  obtain ⟨s', hs', hr⟩ := h.2 _ rfl
  cases hs'
  exact absurd (hr.minAvail 0 (Nat.zero_le _)) (by decide)

end CodesSim.Resource
