import CodesSim.Lib.Slots
import CodesSim.Sched.Reverse

/-!
# Messages are cut into packets exactly

A send scheduler calls `packet_event` once for every packet.  Requests need not differ, so the
requests of a run are numbered in the order in which they were accepted, and `Traced` keeps these
numbers beside the queues and beside the calls: the call of a `next` belongs to the request at the
front of the first queue that is not empty.

* `QItem.Sent.announced_call` : the next call for a request that has sent `m` packets is packet `m`
  of the message (`packets`);
* `tracedMachine_inv` : in every run, the calls made for a queued request are a proper part of its
  packets, those made for a request that has left are all of them;
* `Fifo` : with FCFS the numbers leave in order;
* `Prio.Sorted` : a sub-queue of the priority scheduler only holds requests of its own priority;
* `packets_exact` : the summary over all runs.
-/

namespace CodesSim

/-! ### The packets of a message -/

/-- A packet of a message. -/
structure Packet where
  offset : ℕ
  size : ℕ
  isLast : Bool

/-- The number of packets of a message of `S` bytes. -/
def numPackets (S P : ℕ) : ℕ := max 1 ((S + P - 1) / P)

/-- Packet `m` of a message of `S` bytes. -/
def packetAt (S P m : ℕ) : Packet :=
  let isLast := decide (m + 1 = numPackets S P)
  ⟨m * P, if isLast then S - m * P else P, isLast⟩

/-- The packets of a message of `S` bytes, in order. -/
def packets (S P : ℕ) : List Packet := (List.range (numPackets S P)).map (packetAt S P)

theorem numPackets_le_iff {S P : ℕ} (hP : 0 < P) (m : ℕ) :
    numPackets S P ≤ m + 1 ↔ S ≤ (m + 1) * P := by
  have h : (S + P - 1) / P < m + 2 ↔ S + P - 1 < (m + 2) * P := Nat.div_lt_iff_lt_mul hP
  have h2 : (m + 2) * P = (m + 1) * P + P := by ring
  unfold numPackets
  omega

theorem numPackets_pos (S P : ℕ) : 0 < numPackets S P := by unfold numPackets; omega

theorem mul_le_of_lt_numPackets {S P m : ℕ} (hP : 0 < P) (h : m < numPackets S P) :
    m * P ≤ S := by
  cases m with
  | zero => simp
  | succ m =>
    have := (numPackets_le_iff (S := S) hP m).not.1 (by omega)
    omega

@[simp] theorem length_packets (S P : ℕ) : (packets S P).length = numPackets S P := by
  simp [packets]

theorem take_packets_succ {S P m : ℕ} (h : m < numPackets S P) :
    (packets S P).take m ++ [packetAt S P m] = (packets S P).take (m + 1) := by
  rw [List.take_succ_eq_append_getElem (by simpa using h)]
  simp [packets]

theorem packetAt_size_of_ne {S P m : ℕ} (h : m + 1 ≠ numPackets S P) :
    (packetAt S P m).size = P := by simp [packetAt, h]

theorem sum_take_packets {S P m : ℕ} (h : m < numPackets S P) :
    (((packets S P).take m).map Packet.size).sum = m * P := by
  induction m with
  | zero => simp
  | succ m ih =>
    rw [← take_packets_succ (by omega), List.map_append, List.sum_append, ih (by omega)]
    simp only [List.map_cons, List.map_nil, List.sum_cons, List.sum_nil,
      packetAt_size_of_ne (show m + 1 ≠ numPackets S P by omega)]
    ring

/-- **The sizes of the packets sum to the size of the message.** -/
theorem sum_packets {S P : ℕ} (hP : 0 < P) : ((packets S P).map Packet.size).sum = S := by
  have hpos := numPackets_pos S P
  obtain ⟨m, hm⟩ : ∃ m, numPackets S P = m + 1 := ⟨numPackets S P - 1, by omega⟩
  have hfull : packets S P = (packets S P).take (m + 1) :=
    (List.take_of_length_le (by simp [hm])).symm
  rw [hfull, ← take_packets_succ (by omega), List.map_append, List.sum_append,
    sum_take_packets (by omega)]
  have := mul_le_of_lt_numPackets hP (show m < numPackets S P by omega)
  simp [packetAt, hm]
  omega

/-! ### One request -/

/-- The request and the packet announced by a `packet_event` call. -/
def MethodCall.announced : MethodCall → Option (Request × Packet)
  | .packet req off size _ _ _ last _ => some (req, ⟨off.toNat, size.toNat, last⟩)
  | .recvMsg .. => none

/-- The packets of a request. -/
def Request.packets (req : Request) : List Packet :=
  CodesSim.packets req.msgSize.toNat req.packetSize.toNat

namespace QItem

/-- Exactly `m` packets of the request have been sent, and some are left. -/
structure Sent (q : QItem) (m : ℕ) : Prop where
  packet_pos : 0 < q.req.packetSize.toNat
  lt : m < numPackets q.req.msgSize.toNat q.req.packetSize.toNat
  rem : q.rem.toNat + m * q.req.packetSize.toNat = q.req.msgSize.toNat

variable {q : QItem} {m : ℕ}

theorem Sent.isLastPacket_iff (h : q.Sent m) :
    q.isLastPacket = true ↔ m + 1 = numPackets q.req.msgSize.toNat q.req.packetSize.toNat := by
  have hle := numPackets_le_iff (S := q.req.msgSize.toNat) h.packet_pos m
  have hlt := h.lt
  have hrem := h.rem
  rw [Nat.add_mul] at hle
  simp only [isLastPacket, decide_eq_true_eq, ge_iff_le, UInt64.le_iff_toNat_le]
  omega

/-- **The next call made for a request announces its next packet.** -/
theorem Sent.announced_call (h : q.Sent m) (another : Bool) :
    (q.call false another).announced =
      some (q.req, packetAt q.req.msgSize.toNat q.req.packetSize.toNat m) := by
  have hoff : (q.req.msgSize - q.rem).toNat = m * q.req.packetSize.toNat := by
    have := h.rem
    rw [UInt64.toNat_sub_of_le _ _ (UInt64.le_iff_toNat_le.2 (by omega))]
    omega
  have hlast := h.isLastPacket_iff
  have hrem := h.rem
  simp only [call, Bool.false_eq_true, ↓reduceIte, MethodCall.announced, hoff, packetAt,
    Option.some.injEq, Prod.mk.injEq, Packet.mk.injEq, true_and]
  cases hl : q.isLastPacket with
  | true =>
    rw [hl] at hlast
    have hm := hlast.1 rfl
    simp only [psize, hl, ↓reduceIte, hm, decide_true, and_true]
    omega
  | false =>
    rw [hl] at hlast
    have hm : ¬ m + 1 = numPackets q.req.msgSize.toNat q.req.packetSize.toNat :=
      fun hm => Bool.false_ne_true (hlast.2 hm)
    simp [psize, hl, hm]

theorem Sent.sub_psize (h : q.Sent m) (hl : q.isLastPacket = false) :
    QItem.Sent { q with rem := q.rem - q.psize } (m + 1) := by
  have hlt : q.req.packetSize.toNat < q.rem.toNat := by
    simpa [isLastPacket, UInt64.le_iff_toNat_le] using hl
  have hp : q.psize = q.req.packetSize := by simp [psize, hl]
  have hsub : (q.rem - q.req.packetSize).toNat = q.rem.toNat - q.req.packetSize.toNat :=
    UInt64.toNat_sub_of_le _ _ (UInt64.le_iff_toNat_le.2 hlt.le)
  have hm : ¬ m + 1 = numPackets q.req.msgSize.toNat q.req.packetSize.toNat := fun hm =>
    Bool.false_ne_true (hl.symm.trans (h.isLastPacket_iff.2 hm))
  have h2 := h.lt
  have hrem := h.rem
  refine ⟨h.packet_pos, by simp only; omega, ?_⟩
  simp only [hp, hsub, Nat.add_mul]
  omega

theorem Sent.fresh (req : Request) (sp : SchedParams) (remote self : Option (List UInt8))
    (h : 0 < req.packetSize.toNat) : QItem.Sent ⟨req, sp, req.msgSize, remote, self⟩ 0 :=
  ⟨h, numPackets_pos _ _, by simp⟩

end QItem

/-! ### Traced runs -/

/-- A scheduler with the numbers of the requests it holds and the calls it has made. -/
structure Traced where
  sched : Sched
  /-- The numbers of the queued requests, queue by queue. -/
  ids : List (List ℕ)
  /-- The accepted requests: the number of a request is its position here. -/
  accepted : List Request
  /-- The calls made, each with the number of the request it was made for. -/
  calls : List (ℕ × MethodCall)

namespace Traced

/-- A scheduler that has been set up. -/
def init (cfg : SchedCfg) : Traced :=
  ⟨Sched.init cfg false, (Sched.init cfg false).queues.map fun _ => [], [], []⟩

/-- The numbers of a queue after its front was served. -/
def served (d : Discipline) (ret : ℤ) : List ℕ → List ℕ
  | [] => []
  | k :: ks => if ret = 1 then ks else d.requeue k ks

/-- The calls made for request `k`. -/
def callsOf (calls : List (ℕ × MethodCall)) (k : ℕ) : List MethodCall :=
  (calls.filter fun c => c.1 == k).map Prod.snd

/-- The request `k` is in a queue. -/
def Queued (t : Traced) (k : ℕ) : Prop := k ∈ t.ids.flatten

/-- The numbers of the requests whose last packet was issued, in the order in which it was. -/
def finished (calls : List (ℕ × MethodCall)) : List ℕ :=
  (calls.filter fun c => (c.2.announced.map fun a => a.2.isLast).getD false).map Prod.fst

end Traced

/-- The scheduler operations, keeping the trace. -/
def tracedMachine : Machine Traced SchedCall where
  step t c := match c.op with
    | .add req sp rsz rem lsz loc =>
      (t.sched.add req sp rsz rem lsz loc c.rc).map fun x =>
        let i := (t.sched.prioOf sp).toNat
        { t with
          sched := x.1
          ids := t.ids.set i (t.ids.getD i [] ++ [t.accepted.length])
          accepted := t.accepted ++ [req] }
    | .next =>
      let o := t.sched.next c.save c.rc
      match t.sched.turn with
      | none => some { t with sched := o.state }
      | some i =>
        let ks := t.ids.getD i []
        some { t with
          sched := o.state
          ids := t.ids.set i (Traced.served t.sched.discipline o.ret ks)
          calls := t.calls ++ o.call.toList.map fun c => (ks.headD 0, c) }

namespace Traced

/-- The request `x`, numbered `k`, was accepted and the calls made for it announced the packets
it has sent. -/
def Tracks (accepted : List Request) (calls : List (ℕ × MethodCall)) (x : QItem) (k : ℕ) : Prop :=
  accepted[k]? = some x.req ∧ ∃ m, x.Sent m ∧
    (callsOf calls k).map MethodCall.announced = (x.req.packets.take m).map fun p => some (x.req, p)

/-- Every queued request is tracked by the number beside it. -/
def Aligned (accepted : List Request) (calls : List (ℕ × MethodCall)) (queues : List Queue)
    (ids : List (List ℕ)) : Prop :=
  List.Forall₂ (fun q ks => List.Forall₂ (Tracks accepted calls) q.reqs ks) queues ids

/-- The invariant of a traced run. -/
structure Inv (t : Traced) : Prop where
  recv : ∀ q ∈ t.sched.queues, q.isRecvQueue = false
  aligned : Aligned t.accepted t.calls t.sched.queues t.ids
  nodup : t.ids.flatten.Nodup
  queued_lt : ∀ k ∈ t.ids.flatten, k < t.accepted.length
  calls_lt : ∀ c ∈ t.calls, c.1 < t.accepted.length
  /-- A request that has left its queue has sent all its packets. -/
  gone : ∀ k req, t.accepted[k]? = some req → ¬ t.Queued k →
    (callsOf t.calls k).map MethodCall.announced = req.packets.map fun p => some (req, p)

@[simp] theorem callsOf_append_self (calls : List (ℕ × MethodCall)) (k : ℕ) (c : MethodCall) :
    callsOf (calls ++ [(k, c)]) k = callsOf calls k ++ [c] := by
  simp [callsOf, List.filter_append]

theorem callsOf_append_of_ne (calls : List (ℕ × MethodCall)) {k j : ℕ} (c : MethodCall)
    (h : j ≠ k) : callsOf (calls ++ [(k, c)]) j = callsOf calls j := by
  simp [callsOf, List.filter_append, beq_eq_false_iff_ne.2 h.symm]

theorem callsOf_eq_nil {calls : List (ℕ × MethodCall)} {n : ℕ} (h : ∀ c ∈ calls, c.1 < n) :
    callsOf calls n = [] := by
  simp only [callsOf, List.map_eq_nil_iff, List.filter_eq_nil_iff, beq_iff_eq]
  intro c hc he
  exact absurd (h c hc) (by omega)

/-- Tracking only depends on what was recorded for the numbers in use. -/
theorem Aligned.mono (acc' : List Request) (calls' : List (ℕ × MethodCall)) {acc : List Request}
    {calls : List (ℕ × MethodCall)} {queues : List Queue} {ids : List (List ℕ)}
    (h : Aligned acc calls queues ids)
    (hacc : ∀ k ∈ ids.flatten, acc'[k]? = acc[k]?)
    (hcalls : ∀ k ∈ ids.flatten, callsOf calls' k = callsOf calls k) :
    Aligned acc' calls' queues ids := by
  refine Slots.forall₂_imp_mem h fun q ks hks hq => Slots.forall₂_imp_mem hq fun x k hk hx => ?_
  have hk' : k ∈ ids.flatten := List.mem_flatten.2 ⟨ks, hks, hk⟩
  obtain ⟨h1, m, h2, h3⟩ := hx
  exact ⟨(hacc k hk').trans h1, m, h2, by rw [hcalls k hk']; exact h3⟩

end Traced

theorem Discipline.forall₂_requeue {α β : Type} (d : Discipline) {R : α → β → Prop} {a : α} {b : β}
    {l : List α} {m : List β} (hab : R a b) (h : List.Forall₂ R l m) :
    List.Forall₂ R (d.requeue a l) (d.requeue b m) := by
  cases d with
  | fcfs => exact .cons hab h
  | rr => exact List.rel_append h (.cons hab .nil)

theorem Discipline.requeue_perm {α : Type} (d : Discipline) (a : α) (l : List α) :
    (d.requeue a l).Perm (a :: l) := by
  cases d with
  | fcfs => exact .refl _
  | rr => exact List.perm_append_singleton a l
variable {req : Request}

variable {s' : Sched}


namespace Traced

variable {t t' : Traced}

theorem init_inv (cfg : SchedCfg) : (init cfg).Inv := by
  have hq : ∀ q ∈ (Sched.init cfg false).queues, q = fcfsInit false := by
    obtain ⟨type, n, d⟩ := cfg
    cases type <;> simp [Sched.init, Sched.queues, prioInit]
  refine ⟨fun q h => by rw [hq q h]; rfl, ?_, by simp [init], by simp [init], by simp [init],
    by simp [init]⟩
  simp only [init, Aligned]
  generalize (Sched.init cfg false).queues = l at hq ⊢
  induction l with
  | nil => exact .nil
  | cons q l ih =>
    refine .cons ?_ (ih fun q' h => hq q' (List.mem_cons_of_mem _ h))
    rw [hq q List.mem_cons_self]
    exact .nil

theorem Inv.add (ht : t.Inv) {sp : SchedParams} {rsz lsz : ℤ} {rem loc : Mem}
    {rc rc' : SchedRc} (hp : 0 < req.packetSize.toNat)
    (h : t.sched.add req sp rsz rem lsz loc rc = some (s', rc')) :
    Inv { t with
      sched := s'
      ids := t.ids.set (t.sched.prioOf sp).toNat
        (t.ids.getD (t.sched.prioOf sp).toNat [] ++ [t.accepted.length])
      accepted := t.accepted ++ [req] } := by
  obtain ⟨q, -, hget, hqueues, -, -⟩ := Sched.add_cases h
  obtain ⟨ks, hks, hq⟩ := Slots.forall₂_get ht.aligned hget
  obtain ⟨others, hold, hnew⟩ := Slots.flatten_set_perm hks
  have hgetD : t.ids.getD (t.sched.prioOf sp).toNat [] = ks := by
    simp [List.getD_eq_getElem?_getD, hks]
  rw [hgetD]
  have hperm : (t.ids.set (t.sched.prioOf sp).toNat (ks ++ [t.accepted.length])).flatten.Perm
      (t.accepted.length :: t.ids.flatten) :=
    (hnew _).trans ((List.perm_append_singleton _ _).append_right _ |>.trans (hold.symm.cons _))
  have hfresh : t.accepted.length ∉ t.ids.flatten := fun hm => absurd (ht.queued_lt _ hm) (by omega)
  have haligned := Aligned.mono (t.accepted ++ [req]) t.calls ht.aligned
    (fun k hk => List.getElem?_append_left (ht.queued_lt k hk)) (fun _ _ => rfl)
  refine ⟨?_, ?_, hperm.symm.nodup (List.nodup_cons.2 ⟨hfresh, ht.nodup⟩), ?_, ?_, ?_⟩
  · simp only [hqueues]
    intro q' hq'
    rcases List.mem_or_eq_of_mem_set hq' with hq' | rfl
    · exact ht.recv q' hq'
    · exact ht.recv q (List.mem_of_getElem? hget)
  · simp only [hqueues]
    refine Slots.forall₂_set haligned _ (List.rel_append ?_ (.cons ?_ .nil))
    · obtain ⟨ks', hks', h'⟩ := Slots.forall₂_get haligned hget
      rw [hks] at hks'
      exact Option.some.inj hks' ▸ h'
    · exact ⟨by simp, 0, .fresh _ _ _ _ hp, by simp [callsOf_eq_nil ht.calls_lt]⟩
  · intro k hk
    rcases List.mem_cons.1 (hperm.mem_iff.1 hk) with rfl | hk
    · simp
    · have := ht.queued_lt k hk
      simp only [List.length_append, List.length_singleton]
      omega
  · intro c hc
    have := ht.calls_lt c hc
    simp only [List.length_append, List.length_singleton]
    omega
  · intro k r hk hn
    have hn' : k ≠ t.accepted.length ∧ k ∉ t.ids.flatten := by
      simpa [Queued, hperm.mem_iff, not_or] using hn
    refine ht.gone k r ?_ hn'.2
    obtain ⟨hlt, -⟩ := List.getElem?_eq_some_iff.1 hk
    simp only [List.length_append, List.length_singleton] at hlt
    rwa [List.getElem?_append_left (by omega)] at hk

theorem Inv.served (ht : t.Inv) {o : NextOut Sched} {i : ℕ} {q q' : Queue} {x : QItem}
    {rest : List QItem} (h : t.sched.Served o i q q' x rest) :
    Inv { t with
      sched := o.state
      ids := t.ids.set i (Traced.served t.sched.discipline o.ret (t.ids.getD i []))
      calls := t.calls ++ o.call.toList.map fun c => ((t.ids.getD i []).headD 0, c) } := by
  obtain ⟨ks, hks, hq⟩ := Slots.forall₂_get ht.aligned h.get
  have hgetD : t.ids.getD i [] = ks := by simp [List.getD_eq_getElem?_getD, hks]
  rw [h.reqs] at hq
  obtain ⟨k, ks, htracks, hrest, rfl⟩ := List.forall₂_cons_left_iff.1 hq
  obtain ⟨another, hcall⟩ := h.call
  rw [ht.recv q (List.mem_of_getElem? h.get)] at hcall
  simp only [hgetD, hcall, Option.toList_some, List.map_cons, List.map_nil, List.headD_cons]
  obtain ⟨others, hold, hnew⟩ := Slots.flatten_set_perm hks
  have hnd : (k :: (ks ++ others)).Nodup := hold.nodup ht.nodup
  have hklt : k < t.accepted.length :=
    ht.queued_lt k (hold.mem_iff.2 (by simp))
  obtain ⟨hacc, m, hsent, hcalls⟩ := htracks
  -- the calls made for the request served, with the new one
  have hlog : (callsOf (t.calls ++ [(k, x.call false another)]) k).map MethodCall.announced =
      (x.req.packets.take (m + 1)).map fun p => some (x.req, p) := by
    rw [callsOf_append_self, List.map_append, hcalls, Request.packets,
      ← take_packets_succ hsent.lt, List.map_append]
    simp [hsent.announced_call another]
  have hcalls_lt : ∀ c ∈ t.calls ++ [(k, x.call false another)], c.1 < t.accepted.length := by
    intro c hc
    rcases List.mem_append.1 hc with hc | hc
    · exact ht.calls_lt c hc
    · rw [List.mem_singleton.1 hc]; exact hklt
  have hrecv : ∀ q₀ ∈ o.state.queues, q₀.isRecvQueue = false := by
    rw [h.queues]
    intro q₀ hq₀
    rcases List.mem_or_eq_of_mem_set hq₀ with hq₀ | rfl
    · exact ht.recv q₀ hq₀
    · rw [h.recv]; exact ht.recv q (List.mem_of_getElem? h.get)
  -- all other requests are tracked as before
  have hothers : ∀ q₀ : Queue, q₀.reqs = rest →
      Aligned t.accepted (t.calls ++ [(k, x.call false another)]) (t.sched.queues.set i q₀)
        (t.ids.set i ks) := by
    intro q₀ hq₀
    refine Aligned.mono _ _ (Slots.forall₂_set ht.aligned i (by rw [hq₀]; exact hrest))
      (fun _ _ => rfl) fun j hj => callsOf_append_of_ne _ _ ?_
    rintro rfl
    exact (List.nodup_cons.1 hnd).1 ((hnew ks).mem_iff.1 hj)
  rcases h.outcome with ⟨hlast, hret, hreqs⟩ | ⟨hlast, hret, hreqs⟩
  · have hids : Traced.served t.sched.discipline o.ret (k :: ks) = ks := by
      simp [Traced.served, hret]
    simp only [hids]
    refine ⟨hrecv, ?_, (hnew ks).symm.nodup hnd.of_cons, fun j hj => ?_, hcalls_lt, ?_⟩
    · simp only [h.queues]; exact hothers q' hreqs
    · exact ht.queued_lt j (hold.mem_iff.2 (List.mem_cons_of_mem _ ((hnew ks).mem_iff.1 hj)))
    · intro j r hj hn
      by_cases hjk : j = k
      · obtain rfl := hjk
        obtain rfl : x.req = r := Option.some.inj (hacc.symm.trans hj)
        simp only [hlog]
        rw [List.take_of_length_le (by
          rw [Request.packets, length_packets]
          exact (hsent.isLastPacket_iff.1 hlast).ge)]
      · rw [callsOf_append_of_ne _ _ hjk]
        refine ht.gone j r hj fun hq => hn ((hnew ks).mem_iff.2 ?_)
        exact (List.mem_cons.1 (hold.mem_iff.1 hq)).resolve_left hjk
  · have hids : Traced.served t.sched.discipline o.ret (k :: ks) =
        t.sched.discipline.requeue k ks := by simp [Traced.served, hret]
    have hperm : (t.ids.set i (t.sched.discipline.requeue k ks)).flatten.Perm t.ids.flatten :=
      (hnew _).trans (((t.sched.discipline.requeue_perm k ks).append_right _).trans hold.symm)
    simp only [hids]
    refine ⟨hrecv, ?_, hperm.symm.nodup ht.nodup, fun j hj => ?_, hcalls_lt, ?_⟩
    · have hstep : Tracks t.accepted (t.calls ++ [(k, x.call false another)])
          { x with rem := x.rem - x.psize } k := ⟨hacc, m + 1, hsent.sub_psize hlast, hlog⟩
      have hbase := hothers ⟨false, 0, rest⟩ rfl
      have hi : i < t.sched.queues.length := (List.getElem?_eq_some_iff.1 h.get).1
      obtain ⟨ks', hks', htail⟩ := Slots.forall₂_get hbase (i := i)
        (a := ⟨false, 0, rest⟩) (by simp [hi])
      have hlen : i < t.ids.length := (List.getElem?_eq_some_iff.1 hks).1
      obtain rfl : ks = ks' := by simpa [hlen] using hks'
      have := Slots.forall₂_set hbase i (a := q') (b := t.sched.discipline.requeue k ks)
        (by rw [hreqs]; exact t.sched.discipline.forall₂_requeue hstep htail)
      simp only [List.set_set] at this
      simp only [h.queues]
      exact this
    · exact ht.queued_lt j (hperm.mem_iff.1 hj)
    · intro j r hj hn
      have hn' : j ∉ t.ids.flatten := fun hq => hn (hperm.mem_iff.2 hq)
      have hjk : j ≠ k := by
        rintro rfl
        exact hn' (hold.mem_iff.2 (by simp))
      rw [callsOf_append_of_ne _ _ hjk]
      exact ht.gone j r hj hn'

end Traced

/-! ### Whole runs -/

variable {c : SchedCall}

theorem tracedMachine_step_cases {t t' : Traced} (h : tracedMachine.step t c = some t') :
    (∃ req sp rsz rem lsz loc s' rc', c.op = .add req sp rsz rem lsz loc ∧
      t.sched.add req sp rsz rem lsz loc c.rc = some (s', rc') ∧
      t' = { t with
        sched := s'
        ids := t.ids.set (t.sched.prioOf sp).toNat
          (t.ids.getD (t.sched.prioOf sp).toNat [] ++ [t.accepted.length])
        accepted := t.accepted ++ [req] }) ∨
    (c.op = .next ∧ t' = t) ∨
    (c.op = .next ∧ ∃ o i q q' x rest, t.sched.Served o i q q' x rest ∧
      t' = { t with
        sched := o.state
        ids := t.ids.set i (Traced.served t.sched.discipline o.ret (t.ids.getD i []))
        calls := t.calls ++ o.call.toList.map fun c => ((t.ids.getD i []).headD 0, c) }) := by
  obtain ⟨op, rc, save⟩ := c
  cases op with
  | add req sp rsz rem lsz loc =>
    simp only [tracedMachine, Option.map_eq_some_iff, Prod.exists] at h
    obtain ⟨s', rc', hadd, rfl⟩ := h
    exact .inl ⟨req, sp, rsz, rem, lsz, loc, s', rc', rfl, hadd, rfl⟩
  | next =>
    obtain ⟨he, hstate, -, -⟩ | ⟨i, q, q', x, rest, hs⟩ := t.sched.next_cases save rc
    · simp only [tracedMachine, Sched.turn_eq_none.2 he, hstate, Option.some.injEq] at h
      exact .inr (.inl ⟨rfl, h.symm⟩)
    · simp only [tracedMachine, hs.turn, Option.some.injEq] at h
      exact .inr (.inr ⟨rfl, _, i, q, q', x, rest, hs, h.symm⟩)

theorem tracedMachine_inv {t t' : Traced} (ht : t.Inv) (hc : c.op.PacketPos)
    (h : tracedMachine.step t c = some t') : t'.Inv := by
  obtain ⟨req, sp, rsz, rem, lsz, loc, s', rc', hop, hadd, rfl⟩ | ⟨-, rfl⟩ |
    ⟨-, o, i, q, q', x, rest, hs, rfl⟩ := tracedMachine_step_cases h
  · rw [hop] at hc
    exact ht.add (by simpa [SchedOp.PacketPos, UInt64.lt_iff_toNat_lt] using hc) hadd
  · exact ht
  · exact ht.served hs

theorem tracedMachine_step_of_fwd {t : Traced} {r : SchedRc × Mem}
    (h : schedMachine.fwd t.sched c = some (s', r)) :
    ∃ t', tracedMachine.step t c = some t' ∧ t'.sched = s' := by
  obtain ⟨op, rc, save⟩ := c
  cases op with
  | add req sp rsz rem lsz loc =>
    simp only [schedMachine, Option.map_eq_some_iff, Prod.mk.injEq] at h
    obtain ⟨x, hadd, rfl, -⟩ := h
    exact ⟨_, by simp only [tracedMachine, hadd, Option.map_some]; rfl, rfl⟩
  | next =>
    simp only [schedMachine, Option.some.injEq, Prod.mk.injEq] at h
    obtain ⟨rfl, -⟩ := h
    cases ht : t.sched.turn with
    | none => exact ⟨_, by simp only [tracedMachine, ht]; rfl, rfl⟩
    | some i => exact ⟨_, by simp only [tracedMachine, ht]; rfl, rfl⟩

variable {ops : List SchedCall}

theorem tracedMachine_run_of_runLog {t : Traced} {log : List (SchedCall × SchedRc × Mem)}
    (h : schedMachine.runLog t.sched ops = some (s', log)) :
    ∃ t', tracedMachine.run t ops = some t' ∧ t'.sched = s' := by
  induction ops generalizing t log with
  | nil => cases h; exact ⟨t, rfl, rfl⟩
  | cons c ops ih =>
    obtain ⟨s₁, r, log', hf, hrun, -⟩ := RevMachine.runLog_cons_eq_some.1 h
    obtain ⟨t₁, hstep, rfl⟩ := tracedMachine_step_of_fwd hf
    obtain ⟨t', hrun', he⟩ := ih hrun
    exact ⟨t', Machine.run_cons_eq_some.2 ⟨t₁, hstep, hrun'⟩, he⟩

/-- The request of an `add`. -/
def SchedCall.req? (c : SchedCall) : Option Request :=
  match c.op with
  | .add req _ _ _ _ _ => some req
  | .next => none

theorem tracedMachine_accepted {t t' : Traced} (h : tracedMachine.run t ops = some t') :
    t'.accepted = t.accepted ++ ops.filterMap SchedCall.req? := by
  induction ops generalizing t with
  | nil => cases h; simp
  | cons c ops ih =>
    obtain ⟨t₁, hstep, hrun⟩ := Machine.run_cons_eq_some.1 h
    rw [ih hrun]
    obtain ⟨req, sp, rsz, rem, lsz, loc, s', rc', hop, -, rfl⟩ | ⟨hop, rfl⟩ |
      ⟨hop, o, i, q, q', x, rest, -, rfl⟩ := tracedMachine_step_cases hstep <;>
    simp [SchedCall.req?, hop]

theorem Traced.Inv.packets_of_accepted {t : Traced} (ht : t.Inv) {k : ℕ}
    (hk : t.accepted[k]? = some req) :
    ∃ m ≤ req.packets.length, (t.Queued k ↔ m < req.packets.length) ∧
      (callsOf t.calls k).map MethodCall.announced =
        (req.packets.take m).map fun p => some (req, p) := by
  by_cases hq : t.Queued k
  · obtain ⟨ks, hks, hk'⟩ := List.mem_flatten.1 hq
    obtain ⟨q, -, hqs⟩ := Slots.forall₂_mem_right ht.aligned hks
    obtain ⟨x, -, hacc, m, hsent, hcalls⟩ := Slots.forall₂_mem_right hqs hk'
    obtain rfl : x.req = req := Option.some.inj (hacc.symm.trans hk)
    have hlt : m < x.req.packets.length := by simpa [Request.packets] using hsent.lt
    exact ⟨m, hlt.le, by simp [hq, hlt], hcalls⟩
  · refine ⟨req.packets.length, le_refl _, by simp [hq], ?_⟩
    rw [List.take_length]
    exact ht.gone k req hk hq

/-- The numbers beside the queues are those of the requests in them. -/
theorem Traced.Inv.forall₂_reqs {t : Traced} (ht : t.Inv) :
    List.Forall₂ (fun q ks => List.Forall₂ (fun x k => t.accepted[k]? = some x.req) q.reqs ks)
      t.sched.queues t.ids :=
  ht.aligned.imp fun _ _ h => h.imp fun _ _ hx => hx.1

/-! ### The order of FCFS -/

/-- An FCFS scheduler has finished the first requests and holds the others in order. -/
structure Fifo (t : Traced) : Prop where
  sched : t.sched.discipline = .fcfs ∧ t.sched.queues.length = 1
  ids : ∃ f n, t.accepted.length = f + n ∧ t.ids = [List.range' f n] ∧
    Traced.finished t.calls = List.range f

theorem Traced.finished_append (calls : List (ℕ × MethodCall)) (k : ℕ) {c : MethodCall}
    {p : Packet} (h : c.announced = some (req, p)) :
    finished (calls ++ [(k, c)]) = finished calls ++ if p.isLast then [k] else [] := by
  cases hl : p.isLast <;> simp [finished, List.filter_append, h, hl]

theorem Fifo.step {t t' : Traced} (ht : t.Inv) (hf : Fifo t)
    (h : tracedMachine.step t c = some t') : Fifo t' := by
  obtain ⟨⟨hd, hlen⟩, f, n, hacc, hids, hfin⟩ := hf
  have hzero : ∀ {i : ℕ} {q : Queue}, t.sched.queues[i]? = some q → i = 0 := by
    intro i q hi
    have := (List.getElem?_eq_some_iff.1 hi).1
    omega
  obtain ⟨req, sp, rsz, rem, lsz, loc, s', rc', -, hadd, rfl⟩ | ⟨-, rfl⟩ |
    ⟨-, o, i, q, q', x, rest, hs, rfl⟩ := tracedMachine_step_cases h
  · obtain ⟨q, -, hget, hq, hd', -⟩ := Sched.add_cases hadd
    refine ⟨⟨hd'.trans hd, by simp [hq, hlen]⟩, f, n + 1, by simp; omega, ?_, hfin⟩
    simp only [hzero hget, hids, hacc, List.getD_cons_zero, List.set_cons_zero,
      List.range'_concat, Nat.one_mul]
  · exact ⟨⟨hd, hlen⟩, f, n, hacc, hids, hfin⟩
  · obtain rfl := hzero hs.get
    obtain ⟨ks, hks, hq⟩ := Slots.forall₂_get ht.aligned hs.get
    rw [hs.reqs] at hq
    obtain ⟨k, ks, ⟨-, m, hsent, -⟩, -, rfl⟩ := List.forall₂_cons_left_iff.1 hq
    -- the request served is the oldest one that is not finished
    have hrange : List.range' f n = k :: ks := by simpa [hids] using hks
    obtain ⟨n, rfl⟩ : ∃ n', n = n' + 1 := by
      cases n with
      | zero => simp at hrange
      | succ n => exact ⟨n, rfl⟩
    rw [List.range'_succ, List.cons.injEq] at hrange
    obtain ⟨rfl, rfl⟩ := hrange
    obtain ⟨another, hcall⟩ := hs.call
    rw [ht.recv q (List.mem_of_getElem? hs.get)] at hcall
    have hlast := hsent.isLastPacket_iff
    refine ⟨⟨hs.discipline.trans hd, by simp [hs.queues, hlen]⟩, ?_⟩
    simp only [hids, hcall, hd, List.range'_succ, List.getD_cons_zero, List.set_cons_zero,
      Option.toList_some, List.map_cons, List.map_nil, List.headD_cons]
    rw [Traced.finished_append t.calls _ (hsent.announced_call another)]
    rcases hs.outcome with ⟨hl, hret, -⟩ | ⟨hl, hret, -⟩
    · refine ⟨f + 1, n, by omega, by simp [Traced.served, hret], ?_⟩
      simp only [packetAt, hlast.1 hl, decide_true, ↓reduceIte, List.range_succ]
      rw [hfin]
    · have hm : ¬ m + 1 = numPackets x.req.msgSize.toNat x.req.packetSize.toNat :=
        fun hm => Bool.false_ne_true (hl.symm.trans (hlast.2 hm))
      refine ⟨f, n + 1, by omega, by simp [Traced.served, hret, Discipline.requeue,
        List.range'_succ], ?_⟩
      simpa [packetAt, hm] using hfin

/-! ### The order of the priority scheduler -/

/-- Every request is in the queue of its priority. -/
def Sched.Sorted (s : Sched) : Prop :=
  ∀ (i : ℕ) (q : Queue), s.queues[i]? = some q → ∀ x ∈ q.reqs, s.prioOf x.schedParams = i

theorem Sched.Sorted.init (cfg : SchedCfg) (isRecvQueue : Bool) :
    (Sched.init cfg isRecvQueue).Sorted := by
  intro i q hq x hx
  have hq' : q = fcfsInit isRecvQueue := by
    obtain ⟨type, n, d⟩ := cfg
    have := List.mem_of_getElem? hq
    cases type <;> simp_all [Sched.init, Sched.queues, prioInit]
  rw [hq'] at hx
  simp [fcfsInit] at hx

theorem Sched.Sorted.step {t t' : Traced} (ht : t.sched.Sorted)
    (h : tracedMachine.step t c = some t') : t'.sched.Sorted := by
  obtain ⟨req, sp, rsz, rem, lsz, loc, s', rc', -, hadd, rfl⟩ | ⟨-, rfl⟩ |
    ⟨-, o, i, q, q', x, rest, hs, rfl⟩ := tracedMachine_step_cases h
  · obtain ⟨q, h0, hget, hq, -, hprio⟩ := Sched.add_cases hadd
    intro j q₁ hj y hy
    simp only [hq, List.getElem?_set, hprio] at hj ⊢
    split_ifs at hj with hji
    · obtain rfl := Option.some.inj hj
      rcases List.mem_append.1 hy with hy | hy
      · rw [ht _ q hget y hy]; omega
      · rw [List.mem_singleton.1 hy]; simp only; omega
    · exact ht j q₁ hj y hy
  · exact ht
  · intro j q₁ hj y hy
    simp only [hs.queues, List.getElem?_set, hs.prioOf] at hj ⊢
    split_ifs at hj with hji
    · obtain rfl := Option.some.inj hj
      obtain rfl := hji
      have hold := ht i q hs.get
      rw [hs.reqs] at hold
      rcases hs.outcome with ⟨-, -, hreqs⟩ | ⟨-, -, hreqs⟩
      · exact hold y (List.mem_cons_of_mem _ (hreqs ▸ hy))
      · rw [hreqs] at hy
        rcases List.mem_cons.1 ((t.sched.discipline.requeue_perm _ _).mem_iff.1 hy) with rfl | hy
        · exact hold x List.mem_cons_self
        · exact hold y (List.mem_cons_of_mem _ hy)
    · exact ht j q₁ hj y hy

theorem Sched.Sorted.served_min {s : Sched} (hs : s.Sorted) {o : NextOut Sched} {i : ℕ}
    {q q' : Queue} {x : QItem} {rest : List QItem} (h : s.Served o i q q' x rest) :
    ∀ q₀ ∈ s.queues, ∀ y ∈ q₀.reqs, s.prioOf x.schedParams ≤ s.prioOf y.schedParams := by
  intro q₀ hq₀ y hy
  obtain ⟨j, hj⟩ := List.getElem?_of_mem hq₀
  rw [hs j q₀ hj y hy, hs i q h.get x (by rw [h.reqs]; exact List.mem_cons_self)]
  by_contra hlt
  have hji : j < i := by omega
  have hempty := h.before j hji q₀ hj
  rw [hempty] at hy
  simp at hy

/-! ### The summary -/

theorem accepted_packetSize_pos {cfg : SchedCfg} {t : Traced}
    (hops : ∀ c ∈ ops, c.op.PacketPos) (hrun : tracedMachine.run (Traced.init cfg) ops = some t)
    {k : ℕ} (hk : t.accepted[k]? = some req) : 0 < req.packetSize.toNat := by
  have hmem := List.mem_of_getElem? hk
  rw [tracedMachine_accepted hrun] at hmem
  obtain ⟨c, hc, hreq⟩ := List.mem_filterMap.1 (by simpa [Traced.init] using hmem)
  have hpos := hops c hc
  unfold SchedCall.req? at hreq
  split at hreq
  next heq =>
    obtain rfl := Option.some.inj hreq
    simpa [heq, SchedOp.PacketPos, UInt64.lt_iff_toNat_lt] using hpos
  next => cases hreq

/-- **Packetization is exact under every interleaving.**  In every run of a send scheduler of any
type, the calls made for the request accepted as number `k` announce a first part of its packets:
byte offsets `0, P, 2P, ...`, all but the last of size `P`, the last one marked, `max 1 ⌈S/P⌉` of
them with sizes that sum to `S`.  The part is proper exactly while the number is queued, and the
numbers that are queued are, each once, those of the requests in the queues of the scheduler.  A
`next` issues a packet iff these are not all empty.  FCFS finishes the requests in the order in
which they were accepted, and a packet is never issued while a request of a more urgent priority is
queued. -/
theorem packets_exact (cfg : SchedCfg) (ops : List SchedCall) (hops : ∀ c ∈ ops, c.op.PacketPos)
    {s : Sched} {log : List (SchedCall × SchedRc × Mem)}
    (h : schedMachine.runLog (Sched.init cfg false) ops = some (s, log)) :
    ∃ t, tracedMachine.run (Traced.init cfg) ops = some t ∧ t.sched = s ∧
      t.accepted = ops.filterMap SchedCall.req? ∧
      (∀ k req, t.accepted[k]? = some req →
        req.packets.length =
          max 1 ((req.msgSize.toNat + req.packetSize.toNat - 1) / req.packetSize.toNat) ∧
        (req.packets.map Packet.size).sum = req.msgSize.toNat ∧
        ∃ m ≤ req.packets.length, (t.Queued k ↔ m < req.packets.length) ∧
          (Traced.callsOf t.calls k).map MethodCall.announced =
            (req.packets.take m).map fun p => some (req, p)) ∧
      List.Forall₂ (fun q ks => List.Forall₂ (fun x k => t.accepted[k]? = some x.req) q.reqs ks)
        s.queues t.ids ∧
      t.ids.flatten.Nodup ∧
      (∀ save rc, ((s.next save rc).ret = -1 ↔ s.IsEmpty) ∧
        ((s.next save rc).call = none ↔ s.IsEmpty)) ∧
      (cfg.type = .fcfs ∨ cfg.type = .fcfsFull → ∃ f, Traced.finished t.calls = List.range f) ∧
      (∀ save rc call, (s.next save rc).call = some call →
        ∃ q ∈ s.queues, ∃ x rest another, q.reqs = x :: rest ∧ call = x.call false another ∧
          ∀ q₀ ∈ s.queues, ∀ y ∈ q₀.reqs, s.prioOf x.schedParams ≤ s.prioOf y.schedParams) := by
  obtain ⟨t, hrun, rfl⟩ := tracedMachine_run_of_runLog (t := Traced.init cfg) h
  have hinv : t.Inv := Machine.run_invariant (fun _ _ _ => tracedMachine_inv)
    (Traced.init_inv cfg) hops hrun
  have hsorted : t.sched.Sorted := Machine.run_invariant (I := fun t => t.sched.Sorted)
    (P := fun _ => True) (fun _ _ _ hs _ => hs.step) (Sched.Sorted.init cfg false)
    (fun _ _ => trivial) hrun
  refine ⟨t, hrun, rfl, tracedMachine_accepted hrun, fun k req hk => ?_, hinv.forall₂_reqs,
    hinv.nodup, fun _ _ => ⟨Sched.next_ret_iff, Sched.next_call_eq_none⟩, fun hcfg => ?_,
    fun save rc call hcall => ?_⟩
  · have hP : 0 < req.packetSize.toNat := accepted_packetSize_pos hops hrun hk
    exact ⟨by simp [Request.packets, numPackets], sum_packets hP, hinv.packets_of_accepted hk⟩
  · have hfifo : Fifo (Traced.init cfg) := by
      obtain ⟨type, n, d⟩ := cfg
      rcases hcfg with rfl | rfl <;> exact ⟨⟨rfl, rfl⟩, 0, 0, rfl, rfl, rfl⟩
    obtain ⟨-, f, -, -, -, hf⟩ := (Machine.run_invariant (I := fun t => t.Inv ∧ Fifo t)
      (fun _ _ _ ⟨h1, h2⟩ hc hstep => ⟨tracedMachine_inv h1 hc hstep, h2.step h1 hstep⟩)
      ⟨Traced.init_inv cfg, hfifo⟩ hops hrun).2
    exact ⟨f, hf⟩
  · obtain ⟨-, -, -, hnone⟩ | ⟨i, q, q', x, rest, hs⟩ := t.sched.next_cases save rc
    · rw [hnone] at hcall
      cases hcall
    · obtain ⟨another, hc⟩ := hs.call
      have hq := List.mem_of_getElem? hs.get
      rw [hinv.recv q hq] at hc
      exact ⟨q, hq, x, rest, another, hs.reqs, Option.some.inj (hcall.symm.trans hc),
        hsorted.served_min hs⟩

theorem packets_exact_twoMessages : ∃ s log t,
    schedMachine.runLog (Sched.init ⟨.prio, 2, .rr⟩ false) twoMessages = some (s, log) ∧
      tracedMachine.run (Traced.init ⟨.prio, 2, .rr⟩) twoMessages = some t ∧ t.sched = s ∧
      ∀ save rc, ((s.next save rc).call = none ↔ s.IsEmpty) := by
  have hops : ∀ c ∈ twoMessages, c.op.PacketPos := by
    intro c hc
    simp only [twoMessages, List.mem_cons, List.not_mem_nil, or_false] at hc
    rcases hc with rfl | rfl | rfl | rfl <;> simp [SchedOp.PacketPos]
  obtain ⟨t, hrun, hs, -, -, -, -, hnext, -⟩ :=
    packets_exact ⟨.prio, 2, .rr⟩ twoMessages hops rfl
  exact ⟨_, _, t, rfl, hrun, hs, fun save rc => (hnext save rc).2⟩

end CodesSim
