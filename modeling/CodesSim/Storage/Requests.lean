import CodesSim.Lib.Outcome
import CodesSim.Storage.Basic
import Mathlib.Algebra.BigOperators.Group.Finset.Piecewise

/-!
# The requests of a local storage LP with a scheduler

Callers send requests, and the disk completes one at a time.  Of a request that waits only the data
are kept; it is started in the event of the completion of another one, as that event says: as a
write, and for the caller of the request before it.  So all goes well while only writes of the same
caller have to wait (`served_own`).
-/

namespace CodesSim.Storage

open Function Outcome

/-! ### What the handlers do -/

section Cases

variable {d : DiskModel} {self : Lpid} {now : STime} {data : Data} {s : State} {m : Msg} {e e' : Ev}

def LsmEvent.IsRequest : LsmEvent → Prop
  | .writeRequest | .readRequest => True
  | .writeCompletion | .readCompletion => False

instance (ev : LsmEvent) : Decidable ev.IsRequest := by
  unfold LsmEvent.IsRequest
  cases ev <;> infer_instance

theorem transferTimeTable_category {st st' : LsmStats} {rw : Bool} {object : UInt64}
    {offset : Int64} {size : UInt64} {time : STime}
    (h : transferTimeTable d s st rw object offset size = .ok (time, st')) :
    st'.category = st.category := by
  unfold transferTimeTable at h
  split at h
  · cases h
  obtain ⟨-, rfl⟩ := Prod.mk.inj (Except.ok.inj h)
  unfold LsmStats.transferred
  split_ifs <;> rfl

/-- **A transfer that is started**: where its category has its place, and what the event and the
state are then. -/
theorem ioRequest_cases (h : handleIoRequest d now data e = .ok e') :
    ∃ i stats stat stat' nextIdle delay, findStats data.category e.s.stats = some (i, stats) ∧
      stats[i]? = some stat ∧ stat'.category = stat.category ∧
      e' = ⟨e.s.started (stats.set i stat') nextIdle data, e.m.save e.s stat,
        e.outs ++ [.transfer (decide (e.m.event = .readRequest)) data,
          .completion delay (e.m.save e.s stat).completed]⟩ := by
  unfold handleIoRequest at h
  dsimp only at h
  split at h
  · cases h
  rename_i i stats hfind
  split at h
  · cases h
  rename_i stat hstat
  split at h
  · cases h
  rename_i time stat' htime
  exact ⟨i, stats, stat, stat', _, _, hfind, hstat, transferTimeTable_category htime,
    (Except.ok.inj h).symm⟩

theorem firstWaiting_eq_some {lane : ℕ} {next : Data} {rest : List Data}
    (h : s.firstWaiting = some (lane, next, rest)) :
    lane < s.numPrios ∧ s.queues lane = next :: rest ∧ ∀ j < lane, s.queues j = [] := by
  unfold State.firstWaiting at h
  obtain ⟨before, i, after, hrange, heq, hnone⟩ := List.findSome?_eq_some_iff.1 h
  have hmem : i ∈ List.range s.numPrios := by simp [hrange]
  split at heq
  · cases heq
  · cases heq
    refine ⟨List.mem_range.1 hmem, ‹_›, fun j hj => ?_⟩
    -- the lanes before are those of smaller numbers
    have hsorted := List.pairwise_lt_range (n := s.numPrios)
    have hj' : j ∈ List.range s.numPrios :=
      List.mem_range.2 (Nat.lt_trans hj (List.mem_range.1 hmem))
    rw [hrange] at hj' hsorted
    rcases List.mem_append.1 hj' with hj' | hj'
    · have hfind := hnone j hj'
      split at hfind
      · assumption
      · cases hfind
    · rcases List.mem_cons.1 hj' with rfl | hj'
      · exact absurd hj (Nat.lt_irrefl _)
      · have hlt := List.rel_of_pairwise_cons (List.pairwise_append.1 hsorted).2.1 hj'
        exact absurd hj (Nat.lt_asymm hlt)

theorem lane?_eq_some {prio : ℤ} {lane : ℕ} (h : s.lane? prio = some lane) :
    lane < s.numPrios ∧ lane = prio.toNat := by
  unfold State.lane? at h
  split_ifs at h with hlane
  cases h
  omega

theorem lsmIoEvent_ok {numPrios : ℤ} {old : Msg} {io : Io}
    (h : lsmIoEvent numPrios old io = .ok m) : m = { old with
      event := io.event
      data := io.data numPrios
      cb := io.cb } := by
  unfold lsmIoEvent at h
  split_ifs at h
  exact (Except.ok.inj h).symm

theorem Io.event_isRequest (io : Io) : io.event.IsRequest := by
  unfold Io.event
  split_ifs <;> trivial

theorem lsmEvent_request (h : m.event.IsRequest) : lsmEvent d self now s m =
    if s.useSched then handleIoSchedNew d now ⟨s, m, []⟩ else handleIoRequest d now m.data
    ⟨s, m, []⟩ := by
  unfold lsmEvent
  cases hev : m.event with
  | writeRequest => rfl
  | readRequest => rfl
  | writeCompletion => simp [hev, LsmEvent.IsRequest] at h
  | readCompletion => simp [hev, LsmEvent.IsRequest] at h

theorem lsmEvent_completion (h : ¬m.event.IsRequest) :
    lsmEvent d self now s m = handleIoCompletion d self now ⟨s, m, []⟩ := by
  unfold lsmEvent
  cases hev : m.event with
  | writeRequest => simp [hev, LsmEvent.IsRequest] at h
  | readRequest => simp [hev, LsmEvent.IsRequest] at h
  | writeCompletion => rfl
  | readCompletion => rfl

theorem Msg.completed_not_isRequest (m : Msg) : ¬m.completed.event.IsRequest := by
  unfold Msg.completed
  split_ifs <;> exact id

/-- The fields that requests are about. -/
structure SameSched (s s' : State) : Prop where
  useSched : s'.useSched = s.useSched
  numPrios : s'.numPrios = s.numPrios

/-- **A request that arrives** is started if nothing else is going on, and else waits in a lane. -/
theorem request_cases (hreq : m.event.IsRequest) (hsched : s.useSched = true)
    (h : lsmEvent d self now s m = .ok e) :
    SameSched s e.s ∧ e.s.activeCount = s.activeCount + 1 ∧
      (s.activeCount = 0 ∧ e.s.queues = s.queues ∧
          (∃ delay m', e.outs = [.transfer (decide (m.event = .readRequest)) m.data,
            .completion delay m'] ∧ m'.cb = m.cb ∧ ¬m'.event.IsRequest) ∨
        s.activeCount ≠ 0 ∧ e.outs = [] ∧ e.m = m ∧ ∃ lane, s.lane? m.prio = some lane ∧
          e.s.queues = update s.queues lane (s.queues lane ++ [m.data])) := by
  rw [lsmEvent_request hreq, if_pos hsched] at h
  unfold handleIoSchedNew at h
  split_ifs at h with hidle
  · obtain ⟨u, hu, rfl⟩ := map_eq_ok h
    obtain ⟨i, stats, stat, stat', nextIdle, delay, -, -, -, rfl⟩ := ioRequest_cases hu
    exact ⟨⟨rfl, rfl⟩, rfl, .inl ⟨hidle, rfl, delay, _, rfl, rfl, Msg.completed_not_isRequest _⟩⟩
  · split at h
    · cases h
    · cases h
      exact ⟨⟨rfl, rfl⟩, rfl, .inr ⟨hidle, rfl, rfl, _, ‹_›, rfl⟩⟩

/-- **A completion** is answered, and starts the next request if there is one: in the name of the
request that is completed, and as a write. -/
theorem completion_cases (hcompl : ¬m.event.IsRequest) (hsched : s.useSched = true)
    (h : lsmEvent d self now s m = .ok e) :
    SameSched s e.s ∧ e.s.activeCount = s.activeCount - 1 ∧
      (s.activeCount = 1 ∧ e.s.queues = s.queues ∧ e.outs = [.callback (m.cb.answer self 0)] ∨
        s.activeCount ≠ 1 ∧ ∃ (lane : ℕ) (next : Data) (rest : List Data) (delay : STime)
        (m' : Msg),
          lane < s.numPrios ∧ s.queues lane = next :: rest ∧ e.m.prio = lane ∧
          e.s.queues = update s.queues lane rest ∧
          e.outs = [.callback (m.cb.answer self 0), .transfer false next, .completion delay m'] ∧
          m'.cb = m.cb ∧ ¬m'.event.IsRequest ∧ ∀ j < lane, s.queues j = []) := by
  have hwrite : m.event ≠ .readRequest := by
    intro heq
    exact hcompl (by rw [heq]; trivial)
  rw [lsmEvent_completion hcompl] at h
  unfold handleIoCompletion at h
  split_ifs at h with hsane
  dsimp only at h
  rw [if_pos (by exact hsched)] at h
  unfold handleIoSchedCompl at h
  dsimp only at h
  split_ifs at h with hlast
  · cases h
    refine ⟨⟨rfl, rfl⟩, rfl, .inl ⟨?_, rfl, rfl⟩⟩
    simp only [State.addActive, State.draw] at hlast
    omega
  · split at h
    · cases h
    rename_i lane next rest hfirst
    obtain ⟨u, hu, rfl⟩ := map_eq_ok h
    obtain ⟨i, stats, stat, stat', nextIdle, delay, -, -, -, rfl⟩ := ioRequest_cases hu
    obtain ⟨hlt, hqueue, hbefore⟩ := firstWaiting_eq_some hfirst
    let m' := (m.setPrio lane).save (((s.draw 1).addActive (-1)).setQueue lane rest) stat
    refine ⟨⟨rfl, rfl⟩, rfl, .inr ⟨?_, lane, next, rest, delay, m'.completed, hlt, hqueue, rfl, rfl,
      ?_, rfl, Msg.completed_not_isRequest m', hbefore⟩⟩
    · simp only [State.addActive, State.draw] at hlast
      omega
    · simp [Msg.setPrio, hwrite, m']

end Cases

/-! ### Runs -/

/-- A request of a caller, with its number. -/
structure Req where
  id : ℕ
  io : Io
  deriving DecidableEq

/-- The LP and the completions on their way, with the requests they are the completions of; the
requests that wait; and all requests that arrived, those that were started (as a read or as a
write), and those that were answered. -/
structure Sys where
  s : State
  flying : List (Msg × Req)
  waiting : ℕ → List Req
  arrived : List Req
  started : List (Req × Bool)
  answered : List (Req × Answer ℤ)

/-- What can happen next: a call of `lsm_io_event`, with what the memory of its event holds, or one
of the completions on their way. -/
inductive Label where
  | request (now : STime) (old : Msg) (io : Io)
  | completion (now : STime) (k : ℕ)

def Sys.init (d : DiskModel) (protocol : RcStack.Protocol) (now : STime) : Sys :=
  ⟨State.init d protocol now, [], fun _ => [], [], [], []⟩

def Out.transfer? : Out → Option Bool
  | .transfer rw _ => some rw
  | _ => none

def Out.completion? : Out → Option Msg
  | .completion _ m => some m
  | _ => none

def Out.callback? : Out → Option (Answer ℤ)
  | .callback a => some a
  | _ => none

/-- What an event has started, and the event of its completion. -/
def Ev.start? (e : Ev) : Option (Bool × Msg) :=
  (e.outs.findSome? Out.transfer?).bind fun rw =>
    (e.outs.findSome? Out.completion?).map fun m => (rw, m)

/-- A request is started. -/
def Sys.begin (x : Sys) (r : Req) (start : Bool × Msg) : Sys :=
  { x with
    flying := x.flying ++ [(start.2, r)]
    started := x.started ++ [(r, start.1)] }

/-- A request waits in a lane. -/
def Sys.await (x : Sys) (r : Req) (lane : ℕ) : Sys :=
  { x with waiting := update x.waiting lane (x.waiting lane ++ [r]) }

/-- After the event of a new request. -/
def Sys.arrive (x : Sys) (e : Ev) (r : Req) : Sys :=
  let x := { x with
    s := e.s
    arrived := x.arrived ++ [r] }
  match e.start? with
  | some start => x.begin r start
  | none => x.await r e.m.prio.toNat

/-- After the completion of a request: if another one was started, it is the first one of the lane
that the event names. -/
def Sys.complete (x : Sys) (e : Ev) (k : ℕ) (r : Req) : Sys :=
  let x := { x with
    s := e.s
    flying := x.flying.eraseIdx k
    answered := x.answered ++ (e.outs.filterMap Out.callback?).map fun a => (r, a) }
  let lane := e.m.prio.toNat
  match e.start?, x.waiting lane with
  | some start, next :: rest =>
    { x with waiting := update x.waiting lane rest }.begin next start
  | _, _ => x

/-- One step. -/
def Sys.step (d : DiskModel) (self : Lpid) (x : Sys) : Label → Option Sys
  | .request now old io =>
    match lsmIoEvent x.s.numPrios old io with
    | .error _ => none
    | .ok m =>
      match lsmEvent d self now x.s m with
      | .error _ => none
      | .ok e => some (x.arrive e ⟨x.arrived.length, io⟩)
  | .completion now k =>
    match x.flying[k]? with
    | none => none
    | some (m, r) =>
      match lsmEvent d self now x.s m with
      | .error _ => none
      | .ok e => some (x.complete e k r)

/-- A local storage LP with address `self`. -/
def machine (d : DiskModel) (self : Lpid) : Machine Sys Label := ⟨Sys.step d self⟩

/-- All requests that wait. -/
def Sys.allWaiting (x : Sys) : Multiset Req :=
  ∑ i ∈ Finset.range x.s.numPrios, (x.waiting i : Multiset Req)

/-- **The invariant**: at most one request is started at a time, and none while nothing else waits
for it; every request is in one place. -/
structure Sys.Inv (x : Sys) : Prop where
  sched : x.s.useSched = true
  mirror : ∀ i, x.s.queues i = (x.waiting i).map fun r => r.io.data x.s.numPrios
  lanes : ∀ i, x.s.numPrios ≤ i → x.waiting i = []
  one : x.flying.length ≤ 1
  idle : x.flying = [] → x.s.activeCount = 0
  count : x.s.activeCount = x.flying.length + x.allWaiting.card
  event : ∀ y ∈ x.flying, ¬y.1.event.IsRequest
  starts : (x.started.map Prod.fst : Multiset Req) + x.allWaiting = x.arrived
  answers : x.started.map Prod.fst = x.answered.map Prod.fst ++ x.flying.map Prod.snd
  ids : x.arrived.map Req.id = List.range x.arrived.length

variable {α : Type*}

theorem sum_update {n i : ℕ} (hi : i < n) (f : ℕ → List α) (l : List α) :
    (∑ j ∈ Finset.range n, (update f i l j : Multiset α)) + f i =
      ∑ j ∈ Finset.range n, (f j : Multiset α) + l := by
  have hmem : i ∈ Finset.range n := Finset.mem_range.2 hi
  have hupdate : (fun j => (update f i l j : Multiset α)) =
      update (fun j => (f j : Multiset α)) i l := by
    funext j
    by_cases hj : j = i
    · rw [hj, update_self, update_self]
    · rw [update_of_ne hj, update_of_ne hj]
  rw [hupdate, Finset.sum_update_of_mem hmem,
    Finset.sum_eq_add_sum_sdiff_singleton_of_mem hmem (fun j => (f j : Multiset α)), add_assoc,
    add_comm, add_comm _ (f i : Multiset α)]

theorem sum_push {n i : ℕ} (hi : i < n) (f : ℕ → List α) (a : α) :
    ∑ j ∈ Finset.range n, (update f i (f i ++ [a]) j : Multiset α) =
      a ::ₘ ∑ j ∈ Finset.range n, (f j : Multiset α) := by
  have hsum := sum_update hi f (f i ++ [a])
  rw [← Multiset.coe_add, ← add_assoc, add_right_comm] at hsum
  rw [add_right_cancel hsum, Multiset.coe_singleton, add_comm, Multiset.singleton_add]

theorem sum_pop {n i : ℕ} (hi : i < n) (f : ℕ → List α) {a : α} {l : List α}
    (h : f i = a :: l) : ∑ j ∈ Finset.range n, (f j : Multiset α) =
      a ::ₘ ∑ j ∈ Finset.range n, (update f i l j : Multiset α) := by
  have hsum := sum_update hi f l
  rw [h, ← Multiset.cons_coe, ← Multiset.singleton_add, ← add_assoc] at hsum
  rw [← add_right_cancel hsum, add_comm, Multiset.singleton_add]

section Steps

variable {d : DiskModel} {self : Lpid} {now : STime} {x : Sys} {m : Msg} {e : Ev}
    {old : Msg} {io : Io}
  {k : ℕ} {r : Req}

theorem Sys.init_inv (protocol : RcStack.Protocol) (hsched : 0 < d.useSched) :
    (Sys.init d protocol now).Inv where
  sched := decide_eq_true hsched
  mirror _ := rfl
  lanes _ _ := rfl
  one := Nat.zero_le _
  idle _ := rfl
  count := by simp [Sys.init, State.init, Sys.allWaiting]
  event _ h := by simp [Sys.init] at h
  starts := by simp [Sys.init, Sys.allWaiting]
  answers := rfl
  ids := rfl

theorem Sys.Inv.arrive (h : x.Inv) (hr : r.id = x.arrived.length)
    (hm : lsmIoEvent x.s.numPrios old r.io = .ok m) (hok : lsmEvent d self now x.s m = .ok e) :
    (x.arrive e r).Inv := by
  obtain rfl := lsmIoEvent_ok hm
  have hids : (x.arrived ++ [r]).map Req.id = List.range (x.arrived ++ [r]).length := by
    rw [List.map_append, h.ids, List.length_append, List.length_singleton, List.range_succ, ← hr]
    rfl
  obtain ⟨⟨hsched, hnum⟩, hactive, ⟨hidle, hqueues, delay, m', houts, -, hev⟩ |
    ⟨hbusy, houts, hem, lane, hlane, hqueues⟩⟩ := request_cases r.io.event_isRequest h.sched hok
  · -- nothing else is going on
    have hstart : e.start? = some (decide (r.io.event = .readRequest), m') := by
      rw [Ev.start?, houts]
      rfl
    have hfly : x.flying = [] := by
      have := h.count
      exact List.length_eq_zero_iff.1 (by omega)
    have hnone : x.allWaiting = 0 := by
      have := h.count
      exact Multiset.card_eq_zero.1 (by omega)
    simp only [Sys.arrive, hstart, Sys.begin, hfly, List.nil_append]
    have hall : ∑ i ∈ Finset.range e.s.numPrios, (x.waiting i : Multiset Req) = 0 := by
      rw [hnum]
      exact hnone
    exact {
      sched := hsched.trans h.sched
      mirror := fun i => by rw [hqueues, hnum]; exact h.mirror i
      lanes := fun i hi => h.lanes i (by rw [← hnum]; exact hi)
      one := Nat.le_refl _
      idle := nofun
      count := by simp [Sys.allWaiting, hall, hactive, hidle]
      event := fun y hy => by rwa [List.mem_singleton.1 hy]
      starts := by
        have hstarts := h.starts
        rw [hnone, add_zero] at hstarts
        simp only [Sys.allWaiting, hall, add_zero, List.map_append, ← Multiset.coe_add, hstarts]
        rfl
      answers := by
        have hanswers := h.answers
        rw [hfly] at hanswers
        simpa using hanswers
      ids := hids }
  · -- the request waits
    have hstart : e.start? = none := by
      rw [Ev.start?, houts]
      rfl
    obtain ⟨hlt, hprio⟩ := lane?_eq_some hlane
    simp only [Sys.arrive, hstart, Sys.await, hem, ← hprio]
    have hall : ∑ i ∈ Finset.range e.s.numPrios,
        (update x.waiting lane (x.waiting lane ++ [r]) i : Multiset Req) =
          r ::ₘ x.allWaiting := by
      rw [hnum]
      exact sum_push hlt x.waiting r
    exact {
      sched := hsched.trans h.sched
      mirror := fun i => by
        dsimp only
        rw [hqueues, hnum]
        by_cases hi : i = lane
        · simp [hi, h.mirror lane]
        · rw [update_of_ne hi, update_of_ne hi]
          exact h.mirror i
      lanes := fun i hi => by
        have hi' : x.s.numPrios ≤ i := by rw [← hnum]; exact hi
        dsimp only
        rw [update_of_ne (by omega)]
        exact h.lanes i hi'
      one := h.one
      idle := fun hfly => absurd (h.idle hfly) hbusy
      count := by
        have hcount := h.count
        simp only [Sys.allWaiting, hall, hactive, Multiset.card_cons] at hcount ⊢
        omega
      event := h.event
      starts := by
        simp only [Sys.allWaiting, hall]
        rw [← Multiset.coe_add, ← h.starts, Multiset.coe_singleton, Multiset.add_cons,
          add_comm _ ({r} : Multiset Req), Multiset.singleton_add]
        rfl
      answers := h.answers
      ids := hids }

theorem Sys.Inv.empty (h : x.Inv) (hidle : x.s.activeCount = 0) :
    x.flying = [] ∧ ∀ i, x.waiting i = [] := by
  have hcount := h.count
  have hnone : x.allWaiting = 0 := Multiset.card_eq_zero.1 (by omega)
  refine ⟨List.length_eq_zero_iff.1 (by omega), fun i => ?_⟩
  by_cases hi : i < x.s.numPrios
  · refine List.eq_nil_iff_forall_not_mem.2 fun q hq => ?_
    have hmem : q ∈ x.allWaiting := Multiset.mem_sum.2 ⟨i, Finset.mem_range.2 hi, hq⟩
    rw [hnone] at hmem
    exact Multiset.notMem_zero q hmem
  · exact h.lanes i (by omega)

/-- The completion on its way is the only one. -/
theorem Sys.Inv.flying_eq (h : x.Inv) (hk : x.flying[k]? = some (m, r)) :
    x.flying = [(m, r)] ∧ k = 0 := by
  have hone := h.one
  obtain ⟨hlt, hget⟩ := List.getElem?_eq_some_iff.1 hk
  obtain rfl : k = 0 := by omega
  obtain ⟨y, hy⟩ := List.length_eq_one_iff.1 (show x.flying.length = 1 by omega)
  simp only [hy, List.getElem_cons_zero] at hget
  exact ⟨by rw [hy, hget], rfl⟩

theorem Sys.Inv.complete (h : x.Inv) (hk : x.flying[k]? = some (m, r))
    (hok : lsmEvent d self now x.s m = .ok e) : (x.complete e k r).Inv := by
  obtain ⟨hfly, rfl⟩ := h.flying_eq hk
  have hcompl : ¬m.event.IsRequest := h.event (m, r) (by simp [hfly])
  obtain ⟨⟨hsched, hnum⟩, hactive, ⟨hlast, hqueues, houts⟩ |
    ⟨hmore, lane, next, rest, delay, m', hlt, hqueue, hprio, hqueues, houts, -, hev, -⟩⟩ :=
    completion_cases hcompl h.sched hok
  · -- nobody waits
    have hstart : e.start? = none := by
      rw [Ev.start?, houts]
      rfl
    have hnone : x.allWaiting.card = 0 := by
      have hcount := h.count
      simp only [hfly, List.length_singleton, hlast] at hcount
      omega
    simp only [Sys.complete, hstart, hfly, houts]
    exact {
      sched := hsched.trans h.sched
      mirror := fun i => by rw [hqueues, hnum]; exact h.mirror i
      lanes := fun i hi => h.lanes i (by rw [← hnum]; exact hi)
      one := Nat.zero_le _
      idle := fun _ => by
        dsimp only
        omega
      count := by
        have hcard : (∑ i ∈ Finset.range e.s.numPrios, (x.waiting i : Multiset Req)).card = 0 := by
          rw [hnum]
          exact hnone
        simp [Sys.allWaiting, hcard, hactive, hlast]
      event := fun y hy => by simp at hy
      starts := by
        simp only [Sys.allWaiting, hnum]
        exact h.starts
      answers := by
        have hanswers := h.answers
        rw [hfly] at hanswers
        simpa [Out.callback?] using hanswers
      ids := h.ids }
  · have hstart : e.start? = some (false, m') := by
      rw [Ev.start?, houts]
      rfl
    -- the lane of the code and the one of the requests agree
    have hmirror := h.mirror lane
    rw [hqueue] at hmirror
    obtain ⟨p, ps, hwaiting, -, hps⟩ := List.map_eq_cons_iff.1 hmirror.symm
    have hall : x.allWaiting = p ::ₘ ∑ i ∈ Finset.range e.s.numPrios,
        (update x.waiting lane ps i : Multiset Req) := by
      rw [hnum]
      exact sum_pop hlt x.waiting hwaiting
    simp only [Sys.complete, hstart, hprio, Int.toNat_natCast, hwaiting, Sys.begin, hfly, houts]
    exact {
      sched := hsched.trans h.sched
      mirror := fun i => by
        dsimp only
        rw [hqueues, hnum]
        by_cases hi : i = lane
        · simp [hi, hps]
        · rw [update_of_ne hi, update_of_ne hi]
          exact h.mirror i
      lanes := fun i hi => by
        have hi' : x.s.numPrios ≤ i := by rw [← hnum]; exact hi
        dsimp only
        rw [update_of_ne (by omega)]
        exact h.lanes i hi'
      one := Nat.le_refl _
      idle := nofun
      count := by
        have hcount := h.count
        rw [hall, hfly] at hcount
        simp only [Sys.allWaiting, hactive, List.eraseIdx_cons_zero, List.nil_append,
          List.length_singleton, Multiset.card_cons] at hcount ⊢
        omega
      event := fun y hy => by rwa [List.mem_singleton.1 hy]
      starts := by
        have hstarts := h.starts
        rw [hall] at hstarts
        simp only [Sys.allWaiting, List.map_append, ← Multiset.coe_add, ← hstarts]
        rw [List.map_singleton, Multiset.coe_singleton, Multiset.add_cons, add_assoc,
          Multiset.singleton_add, Multiset.add_cons]
      answers := by
        have hanswers := h.answers
        rw [hfly] at hanswers
        simp [Out.callback?, hanswers]
      ids := h.ids }

/-! ### Requests that are started and answered as their own -/

/-- What every request was issued as and for whom is kept. -/
structure Sys.Right (lpid : Lpid) (x : Sys) : Prop where
  kinds : ∀ y ∈ x.started, y.2 = y.1.io.read
  answers : ∀ y ∈ x.answered, y.2 = y.1.io.cb.answer lpid 0
  cb : ∀ y ∈ x.flying, y.1.cb = y.2.io.cb
  waiting : ∀ i, ∀ r ∈ x.waiting i, r.io.read = false ∧ ∀ y ∈ x.flying, r.io.cb = y.2.io.cb

/-- A request that has to wait is a write, for the caller, header and tag of the one that the disk
works on, and its lane exists. -/
def WaitsAlike (x : Sys) : Label → Prop
  | .request _ old io => x.s.activeCount ≠ 0 → io.read = false ∧
    (x.s.lane? old.prio).isSome = true ∧
      ∀ y ∈ x.flying, io.cb = y.2.io.cb
  | .completion _ _ => True

instance (x : Sys) (l : Label) : Decidable (WaitsAlike x l) := by
  unfold WaitsAlike
  cases l <;> infer_instance

theorem Sys.init_right (protocol : RcStack.Protocol) :
    Sys.Right self (Sys.init d protocol now) where
  kinds _ h := by simp [Sys.init] at h
  answers _ h := by simp [Sys.init] at h
  cb _ h := by simp [Sys.init] at h
  waiting _ _ h := by simp [Sys.init] at h

theorem Sys.Right.arrive (hright : Sys.Right self x) (h : x.Inv)
    (halike : x.s.activeCount ≠ 0 → r.io.read = false ∧ ∀ y ∈ x.flying, r.io.cb = y.2.io.cb)
    (hm : lsmIoEvent x.s.numPrios old r.io = .ok m) (hok : lsmEvent d self now x.s m = .ok e) :
    Sys.Right self (x.arrive e r) := by
  obtain rfl := lsmIoEvent_ok hm
  obtain ⟨-, -, ⟨hidle, -, delay, m', houts, hcb, -⟩ | ⟨hbusy, houts, hem, lane, hlane, -⟩⟩ :=
    request_cases r.io.event_isRequest h.sched hok
  · have hstart : e.start? = some (decide (r.io.event = .readRequest), m') := by
      rw [Ev.start?, houts]
      rfl
    have hempty : x.flying = [] ∧ ∀ i, x.waiting i = [] := h.empty hidle
    simp only [Sys.arrive, hstart, Sys.begin, hempty.1, List.nil_append]
    exact {
      kinds := fun y hy => by
        obtain hy | rfl := by simpa using hy
        · exact hright.kinds y hy
        · unfold Io.event
          cases r.io.read <;> rfl
      answers := hright.answers
      cb := fun y hy => by
        rw [List.mem_singleton.1 hy]
        exact hcb
      waiting := fun i q hq => by
        rw [hempty.2 i] at hq
        cases hq }
  · have hstart : e.start? = none := by
      rw [Ev.start?, houts]
      rfl
    simp only [Sys.arrive, hstart, Sys.await]
    exact {
      kinds := hright.kinds
      answers := hright.answers
      cb := hright.cb
      waiting := fun i q hq => by
        dsimp only at hq
        by_cases hi : i = e.m.prio.toNat
        · rw [hi, update_self] at hq
          obtain hq | rfl := by simpa using hq
          · exact hright.waiting _ q hq
          · exact halike hbusy
        · rw [update_of_ne hi] at hq
          exact hright.waiting i q hq }

theorem Sys.Right.complete (hright : Sys.Right self x) (h : x.Inv) (hk : x.flying[k]? = some (m, r))
    (hok : lsmEvent d self now x.s m = .ok e) : Sys.Right self (x.complete e k r) := by
  obtain ⟨hfly, rfl⟩ := h.flying_eq hk
  have hcompl : ¬m.event.IsRequest := h.event (m, r) (by simp [hfly])
  have hcb : m.cb = r.io.cb := hright.cb (m, r) (by simp [hfly])
  have hanswers (y : Req × Answer ℤ) (hy : y ∈ x.answered ++ [(r, m.cb.answer self 0)]) :
      y.2 = y.1.io.cb.answer self 0 := by
    obtain hy | rfl := by simpa using hy
    · exact hright.answers y hy
    · rw [hcb]
  obtain ⟨-, -, ⟨-, -, houts⟩ |
    ⟨-, lane, next, rest, delay, m', -, hqueue, hprio, -, houts, hcb', -⟩⟩ :=
    completion_cases hcompl h.sched hok
  · have hstart : e.start? = none := by
      rw [Ev.start?, houts]
      rfl
    simp only [Sys.complete, hstart, hfly, houts]
    exact {
      kinds := hright.kinds
      answers := hanswers
      cb := fun y hy => by simp at hy
      waiting := fun i q hq => ⟨(hright.waiting i q hq).1, fun y hy => by simp at hy⟩ }
  · have hstart : e.start? = some (false, m') := by
      rw [Ev.start?, houts]
      rfl
    have hmirror := h.mirror lane
    rw [hqueue] at hmirror
    obtain ⟨p, ps, hwaiting, -, -⟩ := List.map_eq_cons_iff.1 hmirror.symm
    simp only [Sys.complete, hstart, hprio, Int.toNat_natCast, hwaiting, Sys.begin, hfly, houts]
    -- the request that is started next is a write for the same caller
    obtain ⟨hwrite, hsame⟩ := hright.waiting lane p (by simp [hwaiting])
    have hp : p.io.cb = r.io.cb := hsame (m, r) (by simp [hfly])
    exact {
      kinds := fun y hy => by
        obtain hy | rfl := by simpa using hy
        · exact hright.kinds y hy
        · exact hwrite.symm
      answers := hanswers
      cb := fun y hy => by
        rw [List.mem_singleton.1 hy]
        exact hcb'.trans (hcb.trans hp.symm)
      waiting := fun i q hq => by
        dsimp only at hq
        have hq' : q ∈ x.waiting i := by
          by_cases hi : i = lane
          · rw [hi, update_self] at hq
            rw [hi, hwaiting]
            exact List.mem_cons_of_mem _ hq
          · rwa [update_of_ne hi] at hq
        obtain ⟨hread, hcbq⟩ := hright.waiting i q hq'
        refine ⟨hread, fun y hy => ?_⟩
        rw [List.mem_singleton.1 hy, hp]
        exact hcbq (m, r) (by simp [hfly]) }

variable {l : Label} {x' : Sys}

theorem Sys.step_cases (h : x.step d self l = some x') :
    (∃ now old io m e, l = .request now old io ∧ lsmIoEvent x.s.numPrios old io = .ok m ∧
      lsmEvent d self now x.s m = .ok e ∧ x' = x.arrive e ⟨x.arrived.length, io⟩) ∨
    ∃ now k m r e, l = .completion now k ∧ x.flying[k]? = some (m, r) ∧
      lsmEvent d self now x.s m = .ok e ∧ x' = x.complete e k r := by
  unfold Sys.step at h
  cases l with
  | request now old io =>
    simp only at h
    split at h
    · cases h
    rename_i m hm
    split at h
    · cases h
    rename_i e he
    exact .inl ⟨now, old, io, m, e, rfl, hm, he, (Option.some.inj h).symm⟩
  | completion now k =>
    simp only at h
    split at h
    · cases h
    rename_i m r hk
    split at h
    · cases h
    rename_i e he
    exact .inr ⟨now, k, m, r, e, rfl, hk, he, (Option.some.inj h).symm⟩

theorem Sys.Inv.step (h : x.Inv) (hstep : x.step d self l = some x') : x'.Inv := by
  obtain ⟨now, old, io, m, e, -, hm, hok, rfl⟩ | ⟨now, k, m, r, e, -, hk, hok, rfl⟩ :=
    Sys.step_cases hstep
  · exact h.arrive rfl hm hok
  · exact h.complete hk hok

theorem Sys.Right.step (hright : Sys.Right self x) (h : x.Inv)
    (halike : WaitsAlike x l) (hstep : x.step d self l = some x') : Sys.Right self x' := by
  obtain ⟨now, old, io, m, e, rfl, hm, hok, rfl⟩ | ⟨now, k, m, r, e, rfl, hk, hok, rfl⟩ :=
    Sys.step_cases hstep
  · exact hright.arrive h (fun hbusy => ⟨(halike hbusy).1, (halike hbusy).2.2⟩) hm hok
  · exact hright.complete h hk hok

end Steps

/-- **What callers are promised**: every request is started at most once, and as what it was issued
as; every request is answered at most once, and at its own caller, header and tag; and when nothing
is on its way, all were started and answered. -/
structure Served (lpid : Lpid) (x : Sys) : Prop where
  kinds : ∀ y ∈ x.started, y.2 = y.1.io.read
  answers : ∀ y ∈ x.answered, y.2 = y.1.io.cb.answer lpid 0
  startedOnce : (x.started.map Prod.fst).Nodup
  answeredOnce : (x.answered.map Prod.fst).Nodup
  startedArrived : ∀ y ∈ x.started, y.1 ∈ x.arrived
  all : x.flying = [] →
    (x.started.map Prod.fst).Perm x.arrived ∧ (x.answered.map Prod.fst).Perm x.arrived

theorem Sys.Inv.served {self : Lpid} {x : Sys} (h : x.Inv) (hright : Sys.Right self x) :
    Served self x := by
  have hnodup : (x.arrived : Multiset Req).Nodup := by
    rw [Multiset.coe_nodup]
    refine List.Nodup.of_map Req.id ?_
    rw [h.ids]
    exact List.nodup_range
  have hstarted : (x.started.map Prod.fst).Nodup := by
    rw [← h.starts] at hnodup
    exact Multiset.coe_nodup.1 (Multiset.nodup_of_le (Multiset.le_add_right _ _) hnodup)
  have hanswered : (x.answered.map Prod.fst).Nodup := by
    rw [h.answers] at hstarted
    exact hstarted.of_append_left
  refine ⟨hright.kinds, hright.answers, hstarted, hanswered, fun y hy => ?_, fun hfly => ?_⟩
  · rw [← Multiset.mem_coe, ← h.starts]
    exact Multiset.mem_add.2 (.inl (Multiset.mem_coe.2 (List.mem_map_of_mem hy)))
  · have hnone : x.allWaiting = 0 := by
      have hcount := h.count
      rw [h.idle hfly, hfly] at hcount
      exact Multiset.card_eq_zero.1 (by simpa using hcount.symm)
    have hstarts := h.starts
    rw [hnone, add_zero] at hstarts
    have hperm : (x.started.map Prod.fst).Perm x.arrived := Multiset.coe_eq_coe.1 hstarts
    refine ⟨hperm, ?_⟩
    have hanswers := h.answers
    rw [hfly, List.map_nil, List.append_nil] at hanswers
    rwa [← hanswers]

/-- **Requests are served as their own** in every run in which a request that has to wait is a write
for the same caller as the one the disk works on. -/
theorem served_own (d : DiskModel) (self : Lpid) (protocol : RcStack.Protocol) (now : STime)
    (hsched : 0 < d.useSched) (ls : List Label)
    (halike : (machine d self).Meets WaitsAlike (Sys.init d protocol now) ls) (x : Sys)
    (h : (machine d self).run (Sys.init d protocol now) ls = some x) : Served self x := by
  have hinv : x.Inv ∧ Sys.Right self x := Machine.run_invariant_of_meets
    (I := fun y => y.Inv ∧ Sys.Right self y) (P := WaitsAlike)
    (fun y l y' hy hl hstep => ⟨hy.1.step hstep, hy.2.step hy.1 hl hstep⟩)
    ⟨Sys.init_inv protocol hsched, Sys.init_right protocol⟩ halike h
  exact hinv.1.served hinv.2

/-- A disk with one bin and one lane. -/
def plainDisk : DiskModel := ⟨[⟨0, 1, 1, 1, 1, 1, 1⟩], 1⟩

/-- A call for an LP, with an answer in an event of 64 bytes. -/
def callOf (lpid : Lpid) (read : Bool) : Io :=
  ⟨"cat", 1, 0, 1024, read, ⟨⟨64, 0, 16, 20⟩, ⟨lpid, 0, 0⟩, 0⟩, -1⟩

/-- An event with nothing in its memory. -/
def blankMsg : Msg :=
  ⟨.writeRequest, 0, 0, LsmStats.zero, 0, 0, ⟨0, 0, 0, "", 0⟩, ⟨⟨0, 0, 0, 0⟩, ⟨0, 0, 0⟩, 0⟩⟩

/-- Two requests, of which the second has to wait, and their completions. -/
def twoRequests (first second : Io) : List Label :=
  [.request 0 blankMsg first, .request 1 blankMsg second, .completion 10 0, .completion 20 0]

theorem served_own_twoWrites : ∃ x,
    (machine plainDisk 7).run (Sys.init plainDisk .optimistic 0)
      (twoRequests (callOf 3 false) (callOf 3 false)) = some x ∧ Served 7 x := by
  have hsome : ((machine plainDisk 7).run (Sys.init plainDisk .optimistic 0)
      (twoRequests (callOf 3 false) (callOf 3 false))).isSome = true := by decide +kernel
  obtain ⟨x, hx⟩ := Option.isSome_iff_exists.1 hsome
  exact ⟨x, hx, served_own plainDisk 7 .optimistic 0 (by decide) _ (by decide +kernel) x hx⟩

/-- A read of LP 4 that waits for one of LP 3 is started as a write, and answered at LP 3. -/
theorem reads_confused : ∃ x,
    (machine plainDisk 7).run (Sys.init plainDisk .optimistic 0)
      (twoRequests (callOf 3 true) (callOf 4 true)) = some x ∧
    (⟨1, callOf 4 true⟩, false) ∈ x.started ∧
    (∃ a, (⟨1, callOf 4 true⟩, a) ∈ x.answered ∧ a.dest = 3) ∧ ¬Served 7 x := by
  have hrun : ((machine plainDisk 7).run (Sys.init plainDisk .optimistic 0)
      (twoRequests (callOf 3 true) (callOf 4 true))).map (fun x => (x.started, x.answered)) =
        some ([(⟨0, callOf 3 true⟩, true), (⟨1, callOf 4 true⟩, false)],
          [(⟨0, callOf 3 true⟩, (callOf 3 true).cb.answer 7 0),
            (⟨1, callOf 4 true⟩, (callOf 3 true).cb.answer 7 0)]) := by decide +kernel
  obtain ⟨x, hx, heq⟩ := Option.map_eq_some_iff.1 hrun
  obtain ⟨hstarted, hanswered⟩ := Prod.mk.inj heq
  have hmem : (⟨1, callOf 4 true⟩, false) ∈ x.started := by simp [hstarted]
  refine ⟨x, hx, hmem, ⟨(callOf 3 true).cb.answer 7 0, ?_, rfl⟩, fun h => ?_⟩
  · rw [hanswered]
    exact List.mem_cons_of_mem _ List.mem_cons_self
  · exact absurd (h.kinds _ hmem) (by decide)

end CodesSim.Storage
