import CodesSim.Storage.Requests

/-!
# Which request is started next

When the disk has completed a request, the next one should be the one of the smallest priority, and
the earliest of these.  The priority is written into the data of an event (`Io.prio`), but the lane
is chosen by another field of the event, which is never written: it is what was in the memory of the
event.  Requests are started by priority while it happens to be the same
(`priorities_honoured`).
-/

namespace CodesSim.Storage

open Function

/-- The request that is to be started next: no other one that waits has a smaller priority, or the
same and came before. -/
def Sys.IsNext (x : Sys) (r : Req) : Prop :=
  r ∈ x.allWaiting ∧ ∀ q ∈ x.allWaiting, r.io.prio x.s.numPrios < q.io.prio x.s.numPrios ∨
    r.io.prio x.s.numPrios = q.io.prio x.s.numPrios ∧ r.id ≤ q.id

/-- A completion while requests wait starts the one that is next. -/
def Honoured (d : DiskModel) (self : Lpid) (x : Sys) : Label → Prop
  | .completion now k => x.allWaiting ≠ 0 → ∀ x', x.step d self (.completion now k) = some x' →
      ∃ r rw, x.IsNext r ∧ x'.started = x.started ++ [(r, rw)]
  | .request _ _ _ => True

/-- The memory of an event holds the priority of its request, if the request has to wait. -/
def PrioCarried (x : Sys) : Label → Prop
  | .request _ old io => x.s.activeCount ≠ 0 → old.prio = io.prio x.s.numPrios
  | .completion _ _ => True

instance instDecidablePrioCarried (x : Sys) : (l : Label) → Decidable (PrioCarried x l)
  | .request _ old io =>
    inferInstanceAs (Decidable (x.s.activeCount ≠ 0 → old.prio = io.prio x.s.numPrios))
  | .completion _ _ => inferInstanceAs (Decidable True)

/-- **The invariant**: requests wait in the lanes of their priorities, in the order in which they
came. -/
structure Sys.Ordered (x : Sys) : Prop where
  lane : ∀ i, ∀ r ∈ x.waiting i, r.io.prio x.s.numPrios = i
  sorted : ∀ i, (x.waiting i).Pairwise fun r q => r.id < q.id
  fresh : ∀ i, ∀ r ∈ x.waiting i, r.id < x.arrived.length

section Steps

variable {d : DiskModel} {self : Lpid} {now : STime} {x x' : Sys} {m : Msg} {e : Ev} {old : Msg}
  {io : Io} {k : ℕ} {r : Req}

theorem Sys.init_ordered (protocol : RcStack.Protocol) : (Sys.init d protocol now).Ordered where
  lane _ _ h := by simp [Sys.init] at h
  sorted _ := List.Pairwise.nil
  fresh _ _ h := by simp [Sys.init] at h

theorem Sys.Ordered.arrive (hord : x.Ordered) (h : x.Inv) (hr : r.id = x.arrived.length)
    (hcarried : x.s.activeCount ≠ 0 → old.prio = r.io.prio x.s.numPrios)
    (hm : lsmIoEvent x.s.numPrios old r.io = .ok m) (hok : lsmEvent d self now x.s m = .ok e) :
    (x.arrive e r).Ordered := by
  obtain rfl := lsmIoEvent_ok hm
  have hfresh (i : ℕ) (q : Req) (hq : q ∈ x.waiting i) : q.id < (x.arrived ++ [r]).length := by
    rw [List.length_append]
    exact Nat.lt_add_right _ (hord.fresh i q hq)
  obtain ⟨⟨-, hnum⟩, -, ⟨hidle, -, delay, m', houts, -, -⟩ | ⟨hbusy, houts, hem, lane, hlane, -⟩⟩ :=
    request_cases r.io.event_isRequest h.sched hok
  · have hstart : e.start? = some (decide (r.io.event = .readRequest), m') := by
      rw [Ev.start?, houts]
      rfl
    simp only [Sys.arrive, hstart, Sys.begin]
    exact {
      lane := fun i q hq => by rw [hnum]; exact hord.lane i q hq
      sorted := hord.sorted
      fresh := hfresh }
  · have hstart : e.start? = none := by
      rw [Ev.start?, houts]
      rfl
    obtain ⟨hlt, rfl⟩ := lane?_eq_some hlane
    -- the lane of the memory is the one of the priority
    have hprio : r.io.prio x.s.numPrios = (old.prio.toNat : ℤ) := by
      rw [← hcarried hbusy]
      unfold State.lane? at hlane
      split_ifs at hlane with hrange
      exact (Int.toNat_of_nonneg hrange.1).symm
    simp only [Sys.arrive, hstart, Sys.await, hem]
    refine ⟨fun i q hq => ?_, fun i => ?_, fun i q hq => ?_⟩
    all_goals dsimp only at *
    · rw [hnum]
      by_cases hi : i = old.prio.toNat
      · rw [hi, update_self] at hq
        obtain hq | rfl := by simpa using hq
        · exact hi ▸ hord.lane _ q hq
        · exact hi ▸ hprio
      · rw [update_of_ne hi] at hq
        exact hord.lane i q hq
    · by_cases hi : i = old.prio.toNat
      · rw [hi, update_self]
        refine List.pairwise_append.2 ⟨hord.sorted _, List.pairwise_singleton _ _, ?_⟩
        intro q hq p hp
        rw [List.mem_singleton.1 hp, hr]
        exact hord.fresh _ q hq
      · rw [update_of_ne hi]
        exact hord.sorted i
    · by_cases hi : i = old.prio.toNat
      · rw [hi, update_self] at hq
        obtain hq | rfl := by simpa using hq
        · exact hfresh _ q hq
        · simp [hr]
      · rw [update_of_ne hi] at hq
        exact hfresh i q hq

theorem Sys.Ordered.isNext (hord : x.Ordered) (h : x.Inv) {lane : ℕ} {next : Req} {rest : List Req}
    (hlt : lane < x.s.numPrios) (hwaiting : x.waiting lane = next :: rest)
    (hbefore : ∀ j < lane, x.s.queues j = []) : x.IsNext next := by
  have hmem : next ∈ x.waiting lane := by simp [hwaiting]
  refine ⟨Multiset.mem_sum.2 ⟨lane, Finset.mem_range.2 hlt, hmem⟩, fun q hq => ?_⟩
  obtain ⟨j, -, hq⟩ := Multiset.mem_sum.1 hq
  rw [Multiset.mem_coe] at hq
  rw [hord.lane lane next hmem, hord.lane j q hq]
  rcases Nat.lt_trichotomy j lane with hj | rfl | hj
  · have hmirror := h.mirror j
    rw [hbefore j hj] at hmirror
    rw [List.map_eq_nil_iff.1 hmirror.symm] at hq
    cases hq
  · refine .inr ⟨rfl, ?_⟩
    rw [hwaiting] at hq
    rcases List.mem_cons.1 hq with rfl | hq
    · exact Nat.le_refl _
    · have hsorted := hord.sorted j
      rw [hwaiting] at hsorted
      exact Nat.le_of_lt (List.rel_of_pairwise_cons hsorted hq)
  · exact .inl (Int.ofNat_lt.2 hj)

theorem Sys.Ordered.complete (hord : x.Ordered) (h : x.Inv) (hk : x.flying[k]? = some (m, r))
    (hok : lsmEvent d self now x.s m = .ok e) : (x.complete e k r).Ordered ∧
      (x.allWaiting ≠ 0 → ∃ next rw, x.IsNext next ∧
        (x.complete e k r).started = x.started ++ [(next, rw)]) := by
  obtain ⟨hfly, rfl⟩ := h.flying_eq hk
  have hcompl : ¬m.event.IsRequest := h.event (m, r) (by simp [hfly])
  obtain ⟨⟨-, hnum⟩, -, ⟨hlast, -, houts⟩ |
    ⟨-, lane, next, rest, delay, m', hlt, hqueue, hprio, -, houts, -, -, hbefore⟩⟩ :=
    completion_cases hcompl h.sched hok
  · have hstart : e.start? = none := by
      rw [Ev.start?, houts]
      rfl
    have hcount := h.count
    rw [hlast, hfly] at hcount
    have hnone : x.allWaiting = 0 := Multiset.card_eq_zero.1 (by simpa using hcount)
    simp only [Sys.complete, hstart]
    refine ⟨⟨fun i q hq => ?_, hord.sorted, hord.fresh⟩, fun hne => absurd hnone hne⟩
    rw [hnum]
    exact hord.lane i q hq
  · have hstart : e.start? = some (false, m') := by
      rw [Ev.start?, houts]
      rfl
    have hmirror := h.mirror lane
    rw [hqueue] at hmirror
    obtain ⟨p, ps, hwaiting, -, -⟩ := List.map_eq_cons_iff.1 hmirror.symm
    have hnext := hord.isNext h hlt hwaiting hbefore
    have hsub (i : ℕ) : (update x.waiting lane ps i).Sublist (x.waiting i) := by
      by_cases hi : i = lane
      · rw [hi, update_self, hwaiting]
        exact List.sublist_cons_self _ _
      · rw [update_of_ne hi]
    simp only [Sys.complete, hstart, hprio, Int.toNat_natCast, hwaiting, Sys.begin]
    refine ⟨⟨fun i q hq => ?_, fun i => ?_, fun i q hq => ?_⟩, fun _ => ⟨p, false, hnext, rfl⟩⟩
    · rw [hnum]
      exact hord.lane i q ((hsub i).subset hq)
    · exact (hord.sorted i).sublist (hsub i)
    · exact hord.fresh i q ((hsub i).subset hq)

theorem Sys.Ordered.step (hord : x.Ordered) (h : x.Inv) {l : Label} (hcarried : PrioCarried x l)
    (hstep : x.step d self l = some x') : x'.Ordered := by
  obtain ⟨now, old, io, m, e, rfl, hm, hok, rfl⟩ | ⟨now, k, m, r, e, rfl, hk, hok, rfl⟩ :=
    Sys.step_cases hstep
  · exact hord.arrive h rfl hcarried hm hok
  · exact (hord.complete h hk hok).1

theorem Sys.Ordered.honoured (hord : x.Ordered) (h : x.Inv) (l : Label) : Honoured d self x l := by
  cases l with
  | request => trivial
  | completion now k =>
    intro hne x' hstep
    obtain ⟨_, _, _, _, _, heq, -⟩ | ⟨_, _, m, r, e, heq, hk, hok, rfl⟩ := Sys.step_cases hstep
    · cases heq
    · cases heq
      exact (hord.complete h hk hok).2 hne

/-- **Priorities are honoured** in every run in which the events of requests that have to wait hold
their priorities. -/
theorem priorities_honoured (d : DiskModel) (self : Lpid) (protocol : RcStack.Protocol)
    (now : STime)
    (hsched : 0 < d.useSched) (ls : List Label)
    (hcarried : (machine d self).Meets PrioCarried (Sys.init d protocol now) ls) :
    (machine d self).Meets (Honoured d self) (Sys.init d protocol now) ls :=
  Machine.meets_of_meets (I := fun y => y.Inv ∧ y.Ordered)
    (fun _ _ _ hy hl hstep => ⟨hy.1.step hstep, hy.2.step hy.1 hl hstep⟩)
    (fun _ l hy _ => hy.2.honoured hy.1 l)
    ⟨Sys.init_inv protocol hsched, Sys.init_ordered protocol⟩ hcarried

end Steps

/-- A disk with one bin and two lanes. -/
def twoLanes : DiskModel := ⟨[⟨0, 1, 1, 1, 1, 1, 1⟩], 2⟩

/-- While a request is served, one without a priority and one of priority 0 arrive, in events whose
memory holds some numbers. -/
def unsetThenZero (first second : ℤ) : List Label :=
  [.request 0 blankMsg (callOf 3 false),
    .request 1 (blankMsg.setPrio first) (callOf 3 false),
    .request 2 (blankMsg.setPrio second) { callOf 3 false with tempPrio := 0 }]

theorem priorities_honoured_carried : ((machine twoLanes 7).run (Sys.init twoLanes .optimistic 0)
      (unsetThenZero 1 0 ++ [.completion 10 0])).isSome = true ∧
    (machine twoLanes 7).Meets (Honoured twoLanes 7) (Sys.init twoLanes .optimistic 0)
      (unsetThenZero 1 0 ++ [.completion 10 0]) :=
  ⟨by decide +kernel, priorities_honoured twoLanes 7 .optimistic 0 (by decide) _
    (by decide +kernel)⟩

/-- In events with zeros in their memory both wait in lane 0, and the one without a priority, which
has priority 1, is started first. -/
theorem unset_started_first : ¬(machine twoLanes 7).Meets (Honoured twoLanes 7)
    (Sys.init twoLanes .optimistic 0) (unsetThenZero 0 0 ++ [.completion 10 0]) := by
  intro h
  have hrun : (((machine twoLanes 7).run (Sys.init twoLanes .optimistic 0) (unsetThenZero 0 0)).bind
      fun x => (x.step twoLanes 7 (.completion 10 0)).map fun x' =>
        (x.s.numPrios, x.waiting 0, x'.started)) =
      some (2, [⟨1, callOf 3 false⟩, ⟨2, { callOf 3 false with tempPrio := 0 }⟩],
        [(⟨0, callOf 3 false⟩, false), (⟨1, callOf 3 false⟩, false)]) := by decide +kernel
  obtain ⟨x, hx, hrun⟩ := Option.bind_eq_some_iff.1 hrun
  obtain ⟨x', hx', heq⟩ := Option.map_eq_some_iff.1 hrun
  simp only [Prod.mk.injEq] at heq
  obtain ⟨hnum, hwaiting, hstarted⟩ := heq
  have hmem : ⟨2, { callOf 3 false with tempPrio := 0 }⟩ ∈ x.allWaiting :=
    Multiset.mem_sum.2 ⟨0, by simp [hnum], by simp [hwaiting]⟩
  have hne : x.allWaiting ≠ 0 := fun h0 => Multiset.notMem_zero _ (h0 ▸ hmem)
  obtain ⟨r, rw, hnext, hr⟩ := h.last hx hne x' hx'
  have hlast := congrArg List.getLast? hr
  rw [hstarted, List.getLast?_concat] at hlast
  obtain ⟨rfl, -⟩ := Prod.mk.inj (Option.some.inj hlast)
  have hprio := hnext.2 _ hmem
  rw [hnum] at hprio
  exact absurd hprio (by decide)

end CodesSim.Storage
