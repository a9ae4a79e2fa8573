import CodesSim.Lib.Machine
import CodesSim.Sched.Step
import Mathlib.Tactic.Ring

/-!
# The schedulers can be rolled back

`add` and `next` as a `RevMachine` (`schedMachine`): a forward operation is given a record and a
save area with any content and fills them, its reverse gets them back.  Under the invariant
`Sched.Ok` every operation is undone exactly (`schedMachine_bwd_fwd`), hence so is every sequence
of operations from every reachable state (`sched_undo`).

The invariant is about every queued request (`QItem.Ok`): the bytes already sent are a multiple of
the packet size and some byte is left unless the message is empty, so that the bytes left before
the last packet can be recomputed from the message size (`QItem.Ok.lastRem_eq`); and the payloads
have the sizes the request announces, so that they can be read back from the save area.
-/

namespace CodesSim

/-! ### The invariant -/

/-- A payload has the announced size; it is missing exactly when that is not positive. -/
def PayloadOk (size : ℤ) (payload : Option (List UInt8)) : Prop :=
  (size ≤ 0 ∧ payload = none) ∨ (0 < size ∧ ∃ bs, payload = some bs ∧ (bs.length : ℤ) = size)

/-- The invariant of a queued request. -/
structure QItem.Ok (q : QItem) : Prop where
  packet_pos : 0 < q.req.packetSize.toNat
  rem_le : q.rem.toNat ≤ q.req.msgSize.toNat
  /-- Only an empty message has nothing left to send. -/
  rem_pos : q.req.msgSize ≠ 0 → 0 < q.rem.toNat
  /-- Only whole packets have been sent. -/
  sent : q.req.packetSize.toNat ∣ q.req.msgSize.toNat - q.rem.toNat
  remote : PayloadOk q.req.remoteEventSize q.remoteEvent
  self : PayloadOk q.req.selfEventSize q.localEvent

/-- The invariant of a queue. -/
def Queue.Ok (s : Queue) : Prop := ∀ q ∈ s.reqs, q.Ok

/-- The invariant of a scheduler. -/
def Sched.Ok (s : Sched) : Prop := ∀ q ∈ s.queues, q.Ok

theorem PayloadOk.copyEvent (size : ℤ) (m : Mem) : PayloadOk size (copyEvent size m) := by
  unfold CodesSim.copyEvent
  split_ifs with h
  · exact .inr ⟨h, _, rfl, by simp; omega⟩
  · exact .inl ⟨by omega, rfl⟩

theorem QItem.Ok.fresh (req : Request) (sp : SchedParams) (m n : Mem)
    (h : 0 < req.packetSize.toNat) :
    QItem.Ok ⟨req, sp, req.msgSize, copyEvent req.remoteEventSize m,
      copyEvent req.selfEventSize n⟩ where
  packet_pos := h
  rem_le := le_refl _
  rem_pos hne := Nat.pos_of_ne_zero fun h0 => hne (UInt64.toNat_inj.1 (by simpa using h0))
  sent := by simp
  remote := .copyEvent _ _
  self := .copyEvent _ _

namespace QItem.Ok

variable {q : QItem}

/-- **The bytes left before the last packet are a function of the request.** -/
theorem lastRem_eq (h : q.Ok) (hlast : q.isLastPacket = true) : lastRem q.req = q.rem := by
  have hle : q.rem.toNat ≤ q.req.packetSize.toNat := by
    simpa [isLastPacket, UInt64.le_iff_toNat_le] using hlast
  obtain ⟨k, hk⟩ := h.sent
  have hmsg : q.req.msgSize.toNat = q.rem.toNat + q.req.packetSize.toNat * k := by
    have := h.rem_le; omega
  have hmod : (q.req.msgSize % q.req.packetSize).toNat = q.rem.toNat % q.req.packetSize.toNat := by
    rw [UInt64.toNat_mod, hmsg, Nat.add_mul_mod_self_left]
  rw [lastRem]
  -- the remainder is zero for an empty message and when the last packet is a full one
  split_ifs with hz
  · obtain ⟨h0, hne⟩ := hz
    have hpos := h.rem_pos hne
    rw [h0] at hmod
    have hdvd : q.req.packetSize.toNat ∣ q.rem.toNat := Nat.dvd_of_mod_eq_zero hmod.symm
    have := Nat.le_of_dvd hpos hdvd
    exact UInt64.toNat_inj.1 (by omega)
  · apply UInt64.toNat_inj.1
    rw [hmod]
    rcases Nat.lt_or_ge q.rem.toNat q.req.packetSize.toNat with hlt | hge
    · exact Nat.mod_eq_of_lt hlt
    · -- a full last packet of a non-empty message was handled above
      exfalso
      have he : q.rem.toNat = q.req.packetSize.toNat := by omega
      refine hz ⟨UInt64.toNat_inj.1 (by rw [hmod, he]; simp), fun h0 => ?_⟩
      have := h.packet_pos
      rw [h0] at hmsg
      simp at hmsg
      omega

theorem sub_psize (h : q.Ok) (hlast : q.isLastPacket = false) :
    QItem.Ok { q with rem := q.rem - q.psize } := by
  have hlt : q.req.packetSize.toNat < q.rem.toNat := by
    simpa [isLastPacket, UInt64.le_iff_toNat_le] using hlast
  have hp : q.psize = q.req.packetSize := by simp [psize, hlast]
  have hsub : (q.rem - q.req.packetSize).toNat = q.rem.toNat - q.req.packetSize.toNat :=
    UInt64.toNat_sub_of_le _ _ (UInt64.le_iff_toNat_le.2 hlt.le)
  have hle := h.rem_le
  refine ⟨h.packet_pos, ?_, fun _ => ?_, ?_, h.remote, h.self⟩
  · simp only [hp, hsub]; omega
  · simp only [hp, hsub]; omega
  · simp only [hp, hsub]
    have : q.req.msgSize.toNat - (q.rem.toNat - q.req.packetSize.toNat) =
        (q.req.msgSize.toNat - q.rem.toNat) + q.req.packetSize.toNat := by omega
    rw [this]
    exact Nat.dvd_add h.sent (Nat.dvd_refl _)

/-- The payloads of a finished request are read back from the save area. -/
theorem restoreItem_saveEvents (h : q.Ok) (hlast : q.isLastPacket = true) (rc : SchedRc)
    (save : Mem) (hreq : rc.req = q.req) (hsp : rc.schedParams = q.schedParams) :
    restoreItem rc (q.saveEvents save) = q := by
  have hrem := h.lastRem_eq hlast
  obtain ⟨req, sp, rem, remote, self⟩ := q
  obtain ⟨rreq, rsp, rtn, prio⟩ := rc
  obtain rfl : rreq = req := hreq
  obtain rfl : rsp = sp := hsp
  simp only at hrem
  rcases h.remote with ⟨h1, h2⟩ | ⟨h1, bs, h2, h3⟩ <;>
    rcases h.self with ⟨h4, h5⟩ | ⟨h4, cs, h5, h6⟩ <;> simp only at h1 h2 h4 h5
  · simp [restoreItem, hrem, h2, h5, not_lt.2 h1, not_lt.2 h4]
  · have hlen : rreq.selfEventSize.toNat = cs.length := by simp only at h6; omega
    simp [restoreItem, saveEvents, hrem, h2, h5, not_lt.2 h1, h4, hlen, Mem.read_write]
  · have hlen : rreq.remoteEventSize.toNat = bs.length := by simp only at h3; omega
    simp [restoreItem, saveEvents, hrem, h2, h5, h1, not_lt.2 h4, hlen, Mem.read_write]
  · have hl1 : rreq.remoteEventSize.toNat = bs.length := by simp only at h3; omega
    have hl2 : rreq.selfEventSize.toNat = cs.length := by simp only at h6; omega
    simp [restoreItem, saveEvents, hrem, h2, h5, h1, h4, hl1, hl2, Mem.read_write,
      Mem.read_write_before]

end QItem.Ok

/-! ### What `next` does -/

namespace Discipline

variable (d : Discipline)

/-- **`next` on a queue is undone by `next_rc`.** -/
theorem nextRc_next {s : Queue} (hs : s.Ok) (save : Mem) (rc : SchedRc) :
    d.nextRc (d.next s save rc).state (d.next s save rc).save (d.next s save rc).rc = some s := by
  obtain ⟨recv, len, reqs⟩ := s
  cases reqs with
  | nil =>
    rw [d.next_nil rfl]
    cases d <;> simp [nextRc, rrNextRc, fcfsNextRc]
  | cons q rest =>
    have hq : q.Ok := hs q List.mem_cons_self
    cases hl : q.isLastPacket with
    | true =>
      rw [d.next_last rfl hl]
      have hr := hq.restoreItem_saveEvents hl ⟨q.req, q.schedParams, 1, rc.prio⟩ save rfl rfl
      cases d <;> simp [nextRc, rrNextRc, fcfsNextRc, hr]
    | false =>
      rw [d.next_more rfl hl]
      have hp : q.psize = q.req.packetSize := by simp [QItem.psize, hl]
      have hback : q.rem - q.req.packetSize + q.req.packetSize = q.rem := UInt64.sub_add_cancel _ _
      cases d <;> simp [nextRc, rrNextRc, fcfsNextRc, requeue, hp, hback]

theorem next_ok {s : Queue} (hs : s.Ok) (save : Mem) (rc : SchedRc) :
    (d.next s save rc).state.Ok := by
  obtain ⟨recv, len, reqs⟩ := s
  cases reqs with
  | nil => rw [d.next_nil rfl]; exact hs
  | cons q rest =>
    have hq : q.Ok := hs q List.mem_cons_self
    have hrest : ∀ x ∈ rest, x.Ok := fun x hx => hs x (List.mem_cons_of_mem _ hx)
    cases hl : q.isLastPacket with
    | true => rw [d.next_last rfl hl]; exact hrest
    | false =>
      rw [d.next_more rfl hl]
      intro x hx
      have hx' : x = { q with rem := q.rem - q.psize } ∨ x ∈ rest := by
        cases d <;> simp only [requeue, List.mem_cons, List.mem_append, List.not_mem_nil,
          or_false] at hx
        · exact hx
        · exact hx.symm
      rcases hx' with rfl | hx'
      · exact hq.sub_psize hl
      · exact hrest x hx'

end Discipline

/-! ### What `add` does -/

variable {sp : SchedParams} {req : Request} {rsz lsz : ℤ} {rem loc : Mem}

theorem fcfsAddRc_fcfsAdd
    {s s' : Queue} (h : fcfsAdd req sp rsz rem lsz loc s = some s') : fcfsAddRc s' = some s := by
  rw [fcfsAdd_eq_some h]
  simp [fcfsAddRc]

theorem fcfsAdd_ok {s s' : Queue} (hs : s.Ok) (hp : 0 < req.packetSize.toNat)
    (h : fcfsAdd req sp rsz rem lsz loc s = some s') : s'.Ok := by
  rw [fcfsAdd_eq_some h]
  intro x hx
  rcases List.mem_append.1 hx with hx | hx
  · exact hs x hx
  · rw [List.mem_singleton.1 hx]
    exact QItem.Ok.fresh req sp rem loc hp

/-! ### The scheduler as a reversible machine -/

namespace Sched

variable {s : Sched}

/-- **`add` is undone by `add_rc`**, given a record that names the same sub-queue. -/
theorem addRc_add
    {rc rc' : SchedRc} {s' : Sched} (h : s.add req sp rsz rem lsz loc rc = some (s', rc')) :
    s'.addRc rc' = some s := by
  cases s with
  | queue d q =>
    simp only [add, Option.map_eq_some_iff, Prod.mk.injEq] at h
    obtain ⟨q', hq, rfl, rfl⟩ := h
    simp [addRc, fcfsAddRc_fcfsAdd hq]
  | prio p =>
    simp only [add, Option.map_eq_some_iff, Prod.mk.injEq] at h
    obtain ⟨⟨p', rc''⟩, hp, rfl, rfl⟩ := h
    obtain ⟨q, q', hq, hadd, rfl, rfl⟩ := Prio.prioAdd_eq_some hp
    simp [addRc, prioAddRc, Prio.sub?_setSub q' hq, fcfsAddRc_fcfsAdd hadd, Prio.setSub_setSub hq]

/-- **`next` is undone by `next_rc`.** -/
theorem nextRc_next (hs : s.Ok) (save : Mem) (rc : SchedRc) :
    (s.next save rc).state.nextRc (s.next save rc).save (s.next save rc).rc = some s := by
  cases s with
  | queue d q =>
    simp [next, nextRc, d.nextRc_next (hs q (by simp [queues]))]
  | prio p =>
    obtain ⟨-, h⟩ | ⟨i, q, hq, -, -, h⟩ := Prio.prioNext_cases p save rc
    · simp [next, nextRc, prioNextRc, h]
    · have hq' : q.Ok := hs q (Prio.mem_of_sub? hq)
      have hne : ((i : ℤ) = -1) = False := by simp
      have hback := p.subSched.nextRc_next hq' save { rc with prio := i }
      have hsub := Prio.sub?_setSub (p.subSched.next q save { rc with prio := i }).state hq
      simp only [next, nextRc, prioNextRc, h, Prio.next_rc_prio, ne_eq, hne, not_false_eq_true,
        ↓reduceIte, hsub, Option.bind_some]
      simp only [Prio.setSub] at hback ⊢
      rw [hback]
      simp only [Option.map_some, Option.some.injEq, Sched.prio.injEq]
      exact Prio.setSub_setSub hq

theorem add_ok {rc rc' : SchedRc} {s' : Sched} (hs : s.Ok) (hp : 0 < req.packetSize.toNat)
    (h : s.add req sp rsz rem lsz loc rc = some (s', rc')) : s'.Ok :=
  add_queues (fun _ _ hq hadd => fcfsAdd_ok hq hp hadd) hs h

theorem next_ok (hs : s.Ok) (save : Mem) (rc : SchedRc) : (s.next save rc).state.Ok :=
  next_queues (fun d _ save rc hq => d.next_ok hq save rc) hs save rc

theorem init_ok (cfg : SchedCfg) (isRecvQueue : Bool) : (init cfg isRecvQueue).Ok :=
  init_queues cfg isRecvQueue (by simp [Queue.Ok, fcfsInit])

end Sched

/-- The operations of a scheduler. -/
inductive SchedOp where
  | add (req : Request) (schedParams : SchedParams) (remoteEventSize : ℤ) (remoteEvent : Mem)
      (localEventSize : ℤ) (localEvent : Mem)
  | next

/-- A request that is added has a positive packet size. -/
def SchedOp.PacketPos : SchedOp → Prop
  | .add req _ _ _ _ _ => 0 < req.packetSize
  | .next => True

/-- An operation together with the record and the save area it is given to fill. -/
structure SchedCall where
  op : SchedOp
  rc : SchedRc
  save : Mem

/-- The scheduler operations and their reverses. -/
def schedMachine : RevMachine Sched SchedCall (SchedRc × Mem) where
  fwd s c := match c.op with
    | .add req sp rsz rem lsz loc =>
      (s.add req sp rsz rem lsz loc c.rc).map fun x => (x.1, x.2, c.save)
    | .next => some ((s.next c.save c.rc).state, (s.next c.save c.rc).rc, (s.next c.save c.rc).save)
  bwd s c r := match c.op with
    | .add .. => s.addRc r.1
    | .next => s.nextRc r.2 r.1

theorem schedMachine_fwd_ok {s s' : Sched} {c : SchedCall} {r : SchedRc × Mem} (hs : s.Ok)
    (hc : c.op.PacketPos) (h : schedMachine.fwd s c = some (s', r)) : s'.Ok := by
  obtain ⟨op, rc, save⟩ := c
  cases op with
  | add req sp rsz rem lsz loc =>
    simp only [schedMachine, Option.map_eq_some_iff, Prod.mk.injEq] at h
    obtain ⟨⟨t, rc'⟩, hadd, rfl, rfl⟩ := h
    exact Sched.add_ok hs (by simpa [SchedOp.PacketPos, UInt64.lt_iff_toNat_lt] using hc) hadd
  | next =>
    simp only [schedMachine, Option.some.injEq, Prod.mk.injEq] at h
    obtain ⟨rfl, -⟩ := h
    exact Sched.next_ok hs save rc

/-- **One operation is undone by its reverse.** -/
theorem schedMachine_bwd_fwd {s s' : Sched} {c : SchedCall} {r : SchedRc × Mem} (hs : s.Ok)
    (h : schedMachine.fwd s c = some (s', r)) : schedMachine.bwd s' c r = some s := by
  obtain ⟨op, rc, save⟩ := c
  cases op with
  | add req sp rsz rem lsz loc =>
    simp only [schedMachine, Option.map_eq_some_iff, Prod.mk.injEq] at h ⊢
    obtain ⟨⟨t, rc'⟩, hadd, rfl, rfl⟩ := h
    exact Sched.addRc_add hadd
  | next =>
    simp only [schedMachine, Option.some.injEq, Prod.mk.injEq] at h ⊢
    obtain ⟨rfl, rfl⟩ := h
    exact Sched.nextRc_next hs save rc

/-- **Scheduler rollback.**  From every state that a scheduler of any type reaches from its
initial state, undoing any sequence of operations in reverse order, each with the record and the
save area its forward call filled, restores the scheduler exactly. -/
theorem sched_undo (cfg : SchedCfg) (isRecvQueue : Bool) (pre ops : List SchedCall)
    (hpre : ∀ c ∈ pre, c.op.PacketPos) (hops : ∀ c ∈ ops, c.op.PacketPos) {s s' : Sched}
    {log₀ log : List (SchedCall × SchedRc × Mem)}
    (hs : schedMachine.runLog (Sched.init cfg isRecvQueue) pre = some (s, log₀))
    (h : schedMachine.runLog s ops = some (s', log)) : schedMachine.undoAll s' log = some s := by
  have hok : s.Ok := RevMachine.runLog_invariant
    (fun _ _ _ _ => schedMachine_fwd_ok) (Sched.init_ok cfg isRecvQueue) hpre hs
  exact RevMachine.undoAll_runLog (I := Sched.Ok) (P := fun c => c.op.PacketPos)
    (fun _ _ _ _ => schedMachine_fwd_ok) (fun _ _ _ _ hs _ => schedMachine_bwd_fwd hs) hok hops h

/-- A run with a message of two and a half packets and an empty, more urgent one. -/
def twoMessages : List SchedCall :=
  [⟨.add { (default : Request) with msgSize := 5, packetSize := 2, remoteEventSize := 1 }
      ⟨-1⟩ 1 (fun _ => 7) 0 (fun _ => 0), default, fun _ => 0⟩,
    ⟨.next, default, fun _ => 0⟩,
    ⟨.add { (default : Request) with packetSize := 2 } ⟨0⟩ 0 (fun _ => 0) 0 (fun _ => 0),
      default, fun _ => 0⟩,
    ⟨.next, default, fun _ => 0⟩]

theorem sched_undo_twoMessages : ∃ s' log,
    schedMachine.runLog (Sched.init ⟨.prio, 2, .rr⟩ false) twoMessages = some (s', log) ∧
      schedMachine.undoAll s' log = some (Sched.init ⟨.prio, 2, .rr⟩ false) := by
  have hops : ∀ c ∈ twoMessages, c.op.PacketPos := by
    intro c hc
    simp only [twoMessages, List.mem_cons, List.not_mem_nil, or_false] at hc
    rcases hc with rfl | rfl | rfl | rfl <;> simp [SchedOp.PacketPos]
  exact ⟨_, _, rfl, sched_undo ⟨.prio, 2, .rr⟩ false [] twoMessages (by simp) hops rfl rfl⟩

end CodesSim
