import CodesSim.Sched.Basic

/-!
# What the scheduler operations do

Inversion lemmas for `add` and `next`, first for a queue, then for the priority scheduler, then
for every scheduler at once.  `Sched.add_cases` and `Sched.next_cases` say everything the two
operations do to the list of queues; what is proved about schedulers elsewhere rests on these.
-/

namespace CodesSim

/-! ### Queues -/
variable {rest : List QItem}


namespace Discipline

variable (d : Discipline)

/-- Where an unfinished request goes: it stays at the front, or moves to the back. -/
def requeue {α : Type} : Discipline → α → List α → List α
  | fcfs, q, rest => q :: rest
  | rr, q, rest => rest ++ [q]

theorem next_nil {s : Queue} (h : s.reqs = []) (save : Mem) (rc : SchedRc) :
    d.next s save rc =
      { ret := -1, state := s, rc := { rc with rtn := -1 }, save := save, call := none } := by
  cases d <;> simp [next, rrNext, fcfsNext, h]

theorem next_last {s : Queue} {q : QItem} (h : s.reqs = q :: rest)
    (hl : q.isLastPacket = true) (save : Mem) (rc : SchedRc) :
    d.next s save rc =
      { ret := 1, state := { s with queueLen := s.queueLen - 1, reqs := rest },
        rc := { rc with req := q.req, schedParams := q.schedParams, rtn := 1 },
        save := q.saveEvents save,
        call := some (q.call s.isRecvQueue (decide (s.queueLen > 1))) } := by
  cases d <;> simp [next, rrNext, fcfsNext, h, hl]

theorem next_more {s : Queue} {q : QItem} (h : s.reqs = q :: rest)
    (hl : q.isLastPacket = false) (save : Mem) (rc : SchedRc) :
    d.next s save rc =
      { ret := 0, state := { s with reqs := d.requeue { q with rem := q.rem - q.psize } rest },
        rc := { rc with rtn := 0 }, save := save,
        call := some (q.call s.isRecvQueue true) } := by
  cases d <;> simp [next, rrNext, fcfsNext, h, hl, requeue]

theorem next_front {s : Queue} {q : QItem} (h : s.reqs = q :: rest) (save : Mem) (rc : SchedRc) :
    (d.next s save rc).state.isRecvQueue = s.isRecvQueue ∧
    (∃ another, (d.next s save rc).call = some (q.call s.isRecvQueue another)) ∧
    ((q.isLastPacket = true ∧ (d.next s save rc).ret = 1 ∧ (d.next s save rc).state.reqs = rest) ∨
      (q.isLastPacket = false ∧ (d.next s save rc).ret = 0 ∧
        (d.next s save rc).state.reqs = d.requeue { q with rem := q.rem - q.psize } rest)) := by
  cases hl : q.isLastPacket with
  | true => simp [d.next_last h hl]
  | false => simp [d.next_more h hl]

end Discipline

variable {sp : SchedParams} {req : Request} {rsz lsz : ℤ} {rem loc : Mem}

theorem fcfsAdd_eq_some {s s' : Queue} (h : fcfsAdd req sp rsz rem lsz loc s = some s') :
    s' = { s with
      queueLen := s.queueLen + 1,
      reqs := s.reqs ++ [⟨req, sp, req.msgSize, copyEvent req.remoteEventSize rem,
        copyEvent req.selfEventSize loc⟩] } := by
  unfold fcfsAdd at h
  split_ifs at h with hsz
  obtain ⟨rfl, rfl⟩ := hsz
  exact (Option.some.inj h).symm

/-! ### The priority scheduler -/
variable {q : Queue} {rc : SchedRc}


namespace Prio

variable {ss : Prio}

variable {i : ℤ}

theorem sub?_eq_some : ss.sub? i = some q ↔ 0 ≤ i ∧ ss.subScheds[i.toNat]? = some q := by
  unfold sub?
  split_ifs with h
  · simp; omega
  · simp; omega

theorem sub?_setSub (q' : Queue) (h : ss.sub? i = some q) : (ss.setSub i q').sub? i = some q' := by
  obtain ⟨hi, hq⟩ := sub?_eq_some.1 h
  obtain ⟨hlt, -⟩ := List.getElem?_eq_some_iff.1 hq
  exact sub?_eq_some.2 ⟨hi, by simp [setSub, hlt]⟩

theorem setSub_setSub {q' : Queue} (h : ss.sub? i = some q) : (ss.setSub i q').setSub i q = ss := by
  obtain ⟨-, hq⟩ := sub?_eq_some.1 h
  obtain ⟨hlt, rfl⟩ := List.getElem?_eq_some_iff.1 hq
  simp [setSub]

theorem mem_of_sub? (h : ss.sub? i = some q) : q ∈ ss.subScheds :=
  List.mem_of_getElem? (sub?_eq_some.1 h).2

theorem prioAdd_eq_some
    {rc' : SchedRc} {ss' : Prio} (h : prioAdd req sp rsz rem lsz loc ss rc = some (ss', rc')) :
    ∃ q q', ss.sub? (ss.index sp) = some q ∧ fcfsAdd req sp rsz rem lsz loc q = some q' ∧
      ss' = ss.setSub (ss.index sp) q' ∧ rc' = { rc with prio := ss.index sp } := by
  unfold prioAdd at h
  simp only at h
  split_ifs at h
  obtain ⟨q, hq, h⟩ := Option.bind_eq_some_iff.1 h
  obtain ⟨q', hq', he⟩ := Option.map_eq_some_iff.1 h
  simp only [Prod.mk.injEq] at he
  exact ⟨q, q', hq, hq', he.1.symm, he.2.symm⟩

theorem prioNext_cases (ss : Prio) (save : Mem) (rc : SchedRc) :
    ((∀ q ∈ ss.subScheds, q.reqs = []) ∧ prioNext ss save rc =
      { ret := -1, state := ss, rc := { rc with prio := -1 }, save := save, call := none }) ∨
    ∃ (i : ℕ) (q : Queue), ss.sub? i = some q ∧ q.reqs ≠ [] ∧
      (∀ j < i, ∀ q', ss.subScheds[j]? = some q' → q'.reqs = []) ∧
      prioNext ss save rc =
        { ss.subSched.next q save { rc with prio := i } with
          state := ss.setSub i (ss.subSched.next q save { rc with prio := i }).state } := by
  unfold prioNext
  cases hf : ss.subScheds.findIdx? (fun q => !q.reqs.isEmpty) with
  | none =>
    refine .inl ⟨fun q hq => ?_, rfl⟩
    simpa using List.findIdx?_eq_none_iff.1 hf q hq
  | some i =>
    obtain ⟨hi, hne, hmin⟩ := List.findIdx?_eq_some_iff_getElem.1 hf
    refine .inr ⟨i, ss.subScheds[i], sub?_eq_some.2 ⟨by omega, by simp [hi]⟩, by simpa using hne,
      fun j hj q' hq' => ?_, ?_⟩
    · obtain ⟨hj', rfl⟩ := List.getElem?_eq_some_iff.1 hq'
      simpa using hmin j hj
    · simp [List.getD_eq_getElem?_getD, hi]

theorem next_rc_prio (d : Discipline) (q : Queue) (save : Mem) (rc : SchedRc) :
    (d.next q save rc).rc.prio = rc.prio := by
  obtain ⟨recv, len, reqs⟩ := q
  cases reqs with
  | nil => rw [d.next_nil rfl]
  | cons x rest =>
    cases hl : x.isLastPacket with
    | true => rw [d.next_last rfl hl]
    | false => rw [d.next_more rfl hl]

end Prio

/-! ### Every scheduler -/

namespace Sched

/-- The discipline of the queues of a scheduler. -/
def discipline : Sched → Discipline
  | .queue d _ => d
  | .prio p => p.subSched

/-- The queue a request goes to; the only queue of FCFS and round robin is number 0. -/
def prioOf : Sched → SchedParams → ℤ
  | .queue _ _, _ => 0
  | .prio p, sp => p.index sp

/-- The queue whose turn it is: the first one that is not empty. -/
def turn (s : Sched) : Option ℕ := s.queues.findIdx? fun q => !q.reqs.isEmpty

theorem init_isEmpty (cfg : SchedCfg) (isRecvQueue : Bool) : (init cfg isRecvQueue).IsEmpty := by
  obtain ⟨type, n, d⟩ := cfg
  intro q hq
  cases type <;> simp [init, queues, fcfsInit, prioInit] at hq <;> simp_all

theorem turn_eq_none {s : Sched} : s.turn = none ↔ s.IsEmpty := by
  simp [turn, IsEmpty, List.findIdx?_eq_none_iff]

theorem add_cases {s s' : Sched}
    {rc' : SchedRc} (h : s.add req sp rsz rem lsz loc rc = some (s', rc')) :
    ∃ q, 0 ≤ s.prioOf sp ∧ s.queues[(s.prioOf sp).toNat]? = some q ∧
      s'.queues = s.queues.set (s.prioOf sp).toNat { q with
        queueLen := q.queueLen + 1,
        reqs := q.reqs ++ [⟨req, sp, req.msgSize, copyEvent req.remoteEventSize rem,
          copyEvent req.selfEventSize loc⟩] } ∧
      s'.discipline = s.discipline ∧ s'.prioOf = s.prioOf := by
  cases s with
  | queue d q =>
    simp only [add, Option.map_eq_some_iff, Prod.mk.injEq] at h
    obtain ⟨q', hq, rfl, -⟩ := h
    exact ⟨q, Int.le_refl _, rfl, by simp [queues, prioOf, fcfsAdd_eq_some hq], rfl, rfl⟩
  | prio p =>
    simp only [add, Option.map_eq_some_iff, Prod.mk.injEq] at h
    obtain ⟨⟨p', rc''⟩, hp, rfl, -⟩ := h
    obtain ⟨q, q', hq, hadd, rfl, -⟩ := Prio.prioAdd_eq_some hp
    obtain ⟨h0, hget⟩ := Prio.sub?_eq_some.1 hq
    exact ⟨q, h0, hget, by simp [queues, prioOf, Prio.setSub, fcfsAdd_eq_some hadd], rfl, rfl⟩

/-- The outcome `o` of a `next` that served the request `x` at the front of queue `i`. -/
structure Served (s : Sched) (o : NextOut Sched) (i : ℕ) (q q' : Queue) (x : QItem)
    (rest : List QItem) : Prop where
  turn : s.turn = some i
  get : s.queues[i]? = some q
  reqs : q.reqs = x :: rest
  before : ∀ j < i, ∀ q₀, s.queues[j]? = some q₀ → q₀.reqs = []
  queues : o.state.queues = s.queues.set i q'
  recv : q'.isRecvQueue = q.isRecvQueue
  discipline : o.state.discipline = s.discipline
  prioOf : o.state.prioOf = s.prioOf
  call : ∃ another, o.call = some (x.call q.isRecvQueue another)
  outcome : (x.isLastPacket = true ∧ o.ret = 1 ∧ q'.reqs = rest) ∨
    (x.isLastPacket = false ∧ o.ret = 0 ∧
      q'.reqs = s.discipline.requeue { x with rem := x.rem - x.psize } rest)

/-- **What `next` does**: it finds the scheduler empty and changes nothing, or serves the request
at the front of the first queue that is not. -/
theorem next_cases (s : Sched) (save : Mem) (rc : SchedRc) :
    (s.IsEmpty ∧ (s.next save rc).state = s ∧ (s.next save rc).ret = -1 ∧
      (s.next save rc).call = none) ∨
    ∃ i q q' x rest, s.Served (s.next save rc) i q q' x rest := by
  cases s with
  | queue d q =>
    rcases hq : q.reqs with _ | ⟨x, rest⟩
    · exact .inl (by simp [next, d.next_nil hq, IsEmpty, queues, hq])
    · have ht : Sched.turn (.queue d q) = some 0 := by simp [turn, queues, List.findIdx?_cons, hq]
      obtain ⟨hrecv, hcall, hout⟩ := d.next_front hq save rc
      exact .inr ⟨0, q, _, x, rest, ht, rfl, hq, by simp, by simp [next, queues], hrecv, rfl, rfl,
        hcall, hout⟩
  | prio p =>
    obtain ⟨he, h⟩ | ⟨i, q, hsub, hne, hbefore, h⟩ := Prio.prioNext_cases p save rc
    · exact .inl ⟨he, by simp [next, h], by simp [next, h], by simp [next, h]⟩
    · have hget : p.subScheds[i]? = some q := by simpa using (Prio.sub?_eq_some.1 hsub).2
      obtain ⟨x, rest, hq⟩ := List.exists_cons_of_ne_nil hne
      have ht : Sched.turn (.prio p) = some i := by
        obtain ⟨hi, he⟩ := List.getElem?_eq_some_iff.1 hget
        refine List.findIdx?_eq_some_iff_getElem.2 ⟨hi, by simp [queues, he, hne], fun j hj => ?_⟩
        simp [queues, hbefore j hj p.subScheds[j] (List.getElem?_eq_getElem (by omega))]
      obtain ⟨hrecv, hcall, hout⟩ := p.subSched.next_front hq save { rc with prio := i }
      exact .inr ⟨i, q, _, x, rest, ht, hget, hq, hbefore, by simp [next, h, queues, Prio.setSub],
        hrecv, by simp [next, h, discipline, Prio.setSub],
        by funext sp; simp [next, h, prioOf, Prio.setSub, Prio.index], by
        simpa [next, h] using hcall, by simpa [next, h, discipline] using hout⟩

/-- A `next` serves nothing iff there is nothing to serve. -/
theorem Served.not_isEmpty {s : Sched} {o : NextOut Sched} {i : ℕ} {q' : Queue} {x : QItem}
    (h : s.Served o i q q' x rest) : ¬s.IsEmpty := by
  intro hempty
  have hq := hempty q (List.mem_of_getElem? h.get)
  rw [h.reqs] at hq
  cases hq

theorem next_ret_iff {s : Sched} {save : Mem} : (s.next save rc).ret = -1 ↔ s.IsEmpty := by
  obtain ⟨hempty, -, hret, -⟩ | ⟨i, q, q', x, rest, h⟩ := s.next_cases save rc
  · exact iff_of_true hret hempty
  · refine iff_of_false ?_ h.not_isEmpty
    obtain ⟨-, hret, -⟩ | ⟨-, hret, -⟩ := h.outcome
    · rw [hret]
      decide
    · rw [hret]
      decide

theorem next_call_eq_none {s : Sched} {save : Mem} : (s.next save rc).call = none ↔ s.IsEmpty := by
  obtain ⟨hempty, -, -, hcall⟩ | ⟨i, q, q', x, rest, h⟩ := s.next_cases save rc
  · exact iff_of_true hcall hempty
  · obtain ⟨another, hcall⟩ := h.call
    rw [hcall]
    exact iff_of_false (Option.some_ne_none _) h.not_isEmpty

/-! ### What holds of every queue -/

section Queues

variable {I : Queue → Prop} {s s' : Sched}

theorem init_queues (cfg : SchedCfg) (isRecvQueue : Bool) (h : I (fcfsInit isRecvQueue)) :
    ∀ q ∈ (init cfg isRecvQueue).queues, I q := by
  obtain ⟨type, n, d⟩ := cfg
  intro q hq
  have heq : q = fcfsInit isRecvQueue := by
    cases type with
    | prio => exact List.eq_of_mem_replicate hq
    | _ => exact List.mem_singleton.1 hq
  rw [heq]
  exact h

theorem add_queues
    {rc' : SchedRc} (hI : ∀ q q', I q → fcfsAdd req sp rsz rem lsz loc q = some q' → I q')
    (hs : ∀ q ∈ s.queues, I q) (h : s.add req sp rsz rem lsz loc rc = some (s', rc')) :
    ∀ q ∈ s'.queues, I q := by
  cases s with
  | queue d q =>
    simp only [add, Option.map_eq_some_iff, Prod.mk.injEq] at h
    obtain ⟨q', hq, rfl, rfl⟩ := h
    intro x hx
    obtain rfl : x = q' := List.mem_singleton.1 hx
    exact hI q x (hs q List.mem_cons_self) hq
  | prio p =>
    simp only [add, Option.map_eq_some_iff, Prod.mk.injEq] at h
    obtain ⟨⟨p', rc''⟩, hpa, rfl, rfl⟩ := h
    obtain ⟨q, q', hq, hadd, rfl, rfl⟩ := Prio.prioAdd_eq_some hpa
    intro x hx
    rcases List.mem_or_eq_of_mem_set hx with hx | rfl
    · exact hs x hx
    · exact hI q x (hs q (Prio.mem_of_sub? hq)) hadd

theorem next_queues (hI : ∀ (d : Discipline) q save rc, I q → I (d.next q save rc).state)
    (hs : ∀ q ∈ s.queues, I q) (save : Mem) (rc : SchedRc) :
    ∀ q ∈ (s.next save rc).state.queues, I q := by
  cases s with
  | queue d q =>
    intro x hx
    obtain rfl : x = (d.next q save rc).state := List.mem_singleton.1 hx
    exact hI d q save rc (hs q List.mem_cons_self)
  | prio p =>
    obtain ⟨-, h⟩ | ⟨i, q, hq, -, -, h⟩ := Prio.prioNext_cases p save rc
    · simp only [next, h]
      exact hs
    · simp only [next, h]
      intro x hx
      rcases List.mem_or_eq_of_mem_set hx with hx | rfl
      · exact hs x hx
      · exact hI p.subSched q save _ (hs q (Prio.mem_of_sub? hq))

end Queues

end Sched

end CodesSim
