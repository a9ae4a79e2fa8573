import CodesSim.Sched.Reverse

/-!
# Whether another packet is waiting

With each packet goes a flag, `is_there_another_pckt_in_queue`: the latency predictors leave out the
delay after a packet that is the last one.  A queue knows that of itself (`Discipline.next_call`),
and the priority scheduler hands the flag of the queue on as if there were no others: after the last
packet of a queue the flag is off although less urgent requests wait (`flag_accurate_iff`).
-/

namespace CodesSim

/-- A queue of requests to send that counts its requests. -/
structure Queue.Counted (q : Queue) : Prop where
  queueLen : q.queueLen = q.reqs.length
  isRecvQueue : q.isRecvQueue = false

namespace Queue.Counted

variable {q q' : Queue}

theorem init : (fcfsInit false).Counted := ⟨rfl, rfl⟩

theorem add {req : Request} {sp : SchedParams} {rsz lsz : ℤ} {rem loc : Mem} (hq : q.Counted)
    (h : fcfsAdd req sp rsz rem lsz loc q = some q') : q'.Counted := by
  rw [fcfsAdd_eq_some h]
  refine ⟨?_, hq.isRecvQueue⟩
  rw [List.length_append, hq.queueLen]
  rfl

theorem next (hq : q.Counted) (d : Discipline) (save : Mem) (rc : SchedRc) :
    (d.next q save rc).state.Counted := by
  obtain ⟨recv, len, reqs⟩ := q
  obtain ⟨hlen, hrecv⟩ := hq
  cases reqs with
  | nil =>
    rw [d.next_nil rfl]
    exact ⟨hlen, hrecv⟩
  | cons x rest =>
    have hcount : len = rest.length + 1 := hlen
    cases hl : x.isLastPacket with
    | true =>
      rw [d.next_last rfl hl]
      exact ⟨by simp [hcount], hrecv⟩
    | false =>
      rw [d.next_more rfl hl]
      exact ⟨by cases d <;> simp [hcount, Discipline.requeue], hrecv⟩

end Queue.Counted

variable {rest : List QItem}

variable {x : QItem}

/-- **The flag of a queue** says whether the queue still holds a request after the packet. -/
theorem Discipline.next_call (d : Discipline) {q : Queue}
    (hq : q.Counted) (h : q.reqs = x :: rest) (save : Mem) (rc : SchedRc) :
    (d.next q save rc).call =
      some (x.call false (!(d.next q save rc).state.reqs.isEmpty)) := by
  obtain ⟨hlen, hrecv⟩ := hq
  cases hl : x.isLastPacket with
  | true =>
    rw [d.next_last h hl, hrecv]
    cases rest with
    | nil => simp [hlen, h]
    | cons y rest =>
      have hmore : q.queueLen > 1 := by simp [hlen, h]
      simp [hmore]
  | false =>
    rw [d.next_more h hl, hrecv]
    cases d with
    | fcfs => rfl
    | rr =>
      have hmore : (rest ++ [{ x with rem := x.rem - x.psize }]).isEmpty = false := by
        cases rest <;> rfl
      dsimp only [requeue]
      rw [hmore]
      rfl

namespace Sched

variable {s : Sched} {save : Mem} {rc : SchedRc}

/-- Every queue counts its requests. -/
def Counted (s : Sched) : Prop := ∀ q ∈ s.queues, q.Counted

theorem init_counted (cfg : SchedCfg) : (init cfg false).Counted :=
  init_queues cfg false Queue.Counted.init

theorem fwd_counted {s' : Sched} {c : SchedCall} {r : SchedRc × Mem} (hs : s.Counted)
    (h : schedMachine.fwd s c = some (s', r)) : s'.Counted := by
  obtain ⟨op, rc, save⟩ := c
  cases op with
  | add req sp rsz rem lsz loc =>
    simp only [schedMachine, Option.map_eq_some_iff, Prod.mk.injEq] at h
    obtain ⟨⟨t, rc'⟩, hadd, rfl, rfl⟩ := h
    exact add_queues (fun _ _ hq hadd => hq.add hadd) hs hadd
  | next =>
    simp only [schedMachine, Option.some.injEq, Prod.mk.injEq] at h
    obtain ⟨rfl, -⟩ := h
    exact next_queues (fun d _ save rc hq => hq.next d save rc) hs save rc

theorem next_call {i : ℕ} {q q' : Queue} (hs : s.Counted)
    (h : s.Served (s.next save rc) i q q' x rest) :
    (s.next save rc).call = some (x.call false (!q'.reqs.isEmpty)) := by
  cases s with
  | queue d q₀ =>
    obtain ⟨hlt, rfl⟩ := List.getElem?_eq_some_iff.1 h.get
    obtain rfl : i = 0 := Nat.lt_one_iff.1 hlt
    have hstate : (d.next q₀ save rc).state = q' := List.singleton_inj.1 h.queues
    rw [← hstate]
    exact d.next_call (hs q₀ List.mem_cons_self) h.reqs save rc
  | prio p =>
    obtain ⟨hempty, -⟩ | ⟨j, q₀, hsub, hne, hbefore, hnext⟩ := Prio.prioNext_cases p save rc
    · have hq : q.reqs = [] := hempty q (List.mem_of_getElem? h.get)
      rw [h.reqs] at hq
      cases hq
    · have hget : p.subScheds[j]? = some q₀ := by simpa using (Prio.sub?_eq_some.1 hsub).2
      -- both are the first queue that is not empty
      obtain hlt | rfl | hlt := Nat.lt_trichotomy i j
      · have hq : q.reqs = [] := hbefore i hlt q h.get
        rw [h.reqs] at hq
        cases hq
      · obtain rfl : q₀ = q := Option.some.inj (hget.symm.trans h.get)
        have hstate : (p.subSched.next q₀ save { rc with prio := i }).state = q' := by
          obtain ⟨hi, -⟩ := List.getElem?_eq_some_iff.1 hget
          have hqueues := congrArg (fun l : List Queue => l[i]?) h.queues
          simpa [Sched.next, hnext, queues, Prio.setSub, hi] using hqueues
        have hcall := p.subSched.next_call (hs q₀ (List.mem_of_getElem? hget)) h.reqs save
          { rc with prio := i }
        rw [hstate] at hcall
        simpa [Sched.next, hnext] using hcall
      · exact absurd (h.before j hlt q₀ hget) hne

/-- The flag of the packet that `next` issues, if it issues one, says whether the `next` after it
will find something. -/
def FlagAccurate (s : Sched) (save : Mem) (rc : SchedRc) : Prop :=
  ∀ req messageOffset packetSize schedParams remote self isLast another,
    (s.next save rc).call =
      some (.packet req messageOffset packetSize schedParams remote self isLast another) →
    (another = true ↔ ∀ save' rc', ((s.next save rc).state.next save' rc').ret ≠ -1)

/-- **The condition**: when the last packet of the only request of a queue is next, the other queues
are empty. -/
def Foreseen (s : Sched) : Prop :=
  ∀ i q x, s.turn = some i → s.queues[i]? = some q → q.reqs = [x] → x.isLastPacket = true →
    ∀ j q', j ≠ i → s.queues[j]? = some q' → q'.reqs = []

theorem foreseen_queue (d : Discipline) (q : Queue) : (Sched.queue d q).Foreseen := by
  intro i q₀ x hi hq₀ _ _ j q' hj hq'
  obtain ⟨hlt, -⟩ := List.getElem?_eq_some_iff.1 hq₀
  obtain ⟨hlt', -⟩ := List.getElem?_eq_some_iff.1 hq'
  have hone : (Sched.queue d q).queues.length = 1 := rfl
  omega

theorem Served.isEmpty_iff {i : ℕ} {q q' : Queue}
    {o : NextOut Sched} (h : s.Served o i q q' x rest) : o.state.IsEmpty ↔
      q'.reqs = [] ∧ ∀ j q'', j ≠ i → s.queues[j]? = some q'' → q''.reqs = [] := by
  obtain ⟨hi, -⟩ := List.getElem?_eq_some_iff.1 h.get
  rw [IsEmpty, h.queues]
  constructor
  · refine fun hempty => ⟨hempty q' (List.mem_set hi q'), fun j q'' hj hq'' => ?_⟩
    refine hempty q'' (List.mem_of_getElem? (i := j) ?_)
    rw [List.getElem?_set_ne hj.symm, hq'']
  · rintro ⟨hown, hothers⟩ q'' hmem
    obtain ⟨j, hj⟩ := List.mem_iff_getElem?.1 hmem
    by_cases hji : j = i
    · rw [hji, List.getElem?_set_self hi] at hj
      rw [← Option.some.inj hj, hown]
    · rw [List.getElem?_set_ne (Ne.symm hji)] at hj
      exact hothers j q'' hji hj

theorem Served.reqs_eq_nil_iff {i : ℕ} {q q' : Queue}
    {o : NextOut Sched} (h : s.Served o i q q' x rest) :
    q'.reqs = [] ↔ rest = [] ∧ x.isLastPacket = true := by
  obtain ⟨hlast, -, hreqs⟩ | ⟨hmore, -, hreqs⟩ := h.outcome
  · rw [hreqs]
    exact (and_iff_left hlast).symm
  · refine iff_of_false ?_ fun hl => Bool.false_ne_true (hmore.symm.trans hl.2)
    rw [hreqs]
    cases s.discipline <;> simp [Discipline.requeue]

theorem flagAccurate_iff (hs : s.Counted) (save : Mem) (rc : SchedRc) :
    s.FlagAccurate save rc ↔ s.Foreseen := by
  have hnext (save' : Mem) (rc' : SchedRc) :
      ((s.next save rc).state.next save' rc').ret ≠ -1 ↔ ¬(s.next save rc).state.IsEmpty :=
    not_congr next_ret_iff
  obtain ⟨hempty, -, -, hcall⟩ | ⟨i, q, q', x, rest, h⟩ := s.next_cases save rc
  · refine iff_of_true (fun _ _ _ _ _ _ _ _ hpacket => ?_) fun i q x hi => ?_
    · rw [hcall] at hpacket
      cases hpacket
    · rw [turn_eq_none.2 hempty] at hi
      cases hi
  · have hcall := next_call hs h
    have hpacket : s.FlagAccurate save rc ↔
        ((!q'.reqs.isEmpty) = true ↔ ¬(s.next save rc).state.IsEmpty) := by
      simp only [FlagAccurate, hnext, forall_const, hcall, Option.some.injEq]
      constructor
      · exact fun haccurate => haccurate _ _ _ _ _ _ _ _ rfl
      · intro haccurate req off size sp remote self isLast another heq
        obtain ⟨-, -, -, -, -, -, -, rfl⟩ := MethodCall.packet.inj heq
        exact haccurate
    have hflag : (!q'.reqs.isEmpty) = true ↔ ¬q'.reqs = [] := by
      rw [Bool.not_eq_true', ← Bool.not_eq_true, List.isEmpty_iff]
    rw [hpacket, hflag, not_iff_not, h.isEmpty_iff, h.reqs_eq_nil_iff]
    constructor
    · intro hothers i' q₀ y hturn hget hreqs hlast
      obtain rfl : i' = i := Option.some.inj (hturn.symm.trans h.turn)
      obtain rfl : q₀ = q := Option.some.inj (hget.symm.trans h.get)
      obtain ⟨rfl, hrest⟩ := List.cons.inj (hreqs.symm.trans h.reqs)
      exact (hothers.1 ⟨hrest.symm, hlast⟩).2
    · intro hforeseen
      refine ⟨fun hl => ⟨hl, ?_⟩, fun hl => hl.1⟩
      exact hforeseen i q x h.turn h.get (by rw [h.reqs, hl.1]) hl.2

end Sched

/-- **Another packet.**  In every state that a scheduler of any type reaches, the flag of the next
packet is accurate if and only if the packet is not the last one of a queue, or the scheduler holds
nothing besides. -/
theorem flag_accurate_iff (cfg : SchedCfg) (pre : List SchedCall) {s : Sched}
    {log : List (SchedCall × SchedRc × Mem)}
    (hs : schedMachine.runLog (Sched.init cfg false) pre = some (s, log)) (save : Mem)
    (rc : SchedRc) : s.FlagAccurate save rc ↔ s.Foreseen := by
  have hcounted : s.Counted := RevMachine.runLog_invariant (P := fun _ => True)
    (fun _ _ _ _ hs _ => Sched.fwd_counted hs) (Sched.init_counted cfg) (fun _ _ => trivial) hs
  exact Sched.flagAccurate_iff hcounted save rc

/-- A request of one packet with a priority. -/
def onePacket (prio : ℤ) : SchedCall :=
  ⟨.add { (default : Request) with msgSize := 1, packetSize := 2 } ⟨prio⟩ 0 (fun _ => 0) 0
    (fun _ => 0), default, fun _ => 0⟩

theorem flag_accurate_iff_fcfs : ∃ s log,
    schedMachine.runLog (Sched.init ⟨.fcfs, 0, .fcfs⟩ false) [onePacket 0, onePacket 0] =
        some (s, log) ∧ s.FlagAccurate (fun _ => 0) default :=
  ⟨_, _, rfl, (flag_accurate_iff ⟨.fcfs, 0, .fcfs⟩ [onePacket 0, onePacket 0] rfl _ _).2
    (Sched.foreseen_queue _ _)⟩

/-- **The flag of an urgent packet** is off although a less urgent one waits. -/
theorem flag_misses_queue : ∃ s log,
    schedMachine.runLog (Sched.init ⟨.prio, 2, .fcfs⟩ false) [onePacket 0, onePacket 1] =
        some (s, log) ∧ ¬s.FlagAccurate (fun _ => 0) default := by
  refine ⟨_, _, rfl, fun haccurate => ?_⟩
  have hflag := haccurate _ _ _ _ _ _ _ _ rfl
  have hoff := hflag.2 fun save' rc' hret => ?_
  · cases hoff
  · cases hret

end CodesSim
