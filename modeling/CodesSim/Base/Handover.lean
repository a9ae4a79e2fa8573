import CodesSim.Base.Token

/-!
# Packets handed over by the base LP

On most networks the base LP does not go on with the loop of a queue by itself.  A step of the loop
hands a packet over to the network method, which asks for the next one with an idle event.

The requests in a scheduler belong to its queue (`Sched.Of`, `BaseState.Sorted`), so a packet is
handed over for the queue whose loop made the step.  `baseEvent_handover` lists what an event may
do to the loops.
-/

namespace CodesSim

/-! ### Schedulers -/

namespace Sched

/-- The requests in a scheduler belong to the queue that the scheduler is for. -/
def Of (l : Lane) (s : Sched) : Prop :=
  ∀ q ∈ s.queues, q.isRecvQueue = decide (l = .recv) ∧
    ∀ x ∈ q.reqs, ∀ k, l = .send k → x.req.queueOffset = k

variable {l : Lane} {s s' : Sched}

theorem init_of (cfg : SchedCfg) (l : Lane) : (init cfg (decide (l = .recv))).Of l := by
  obtain ⟨type, n, d⟩ := cfg
  intro q hq
  cases type with
  | prio =>
    simp only [init, queues, prioInit, List.mem_replicate] at hq
    rw [hq.2]
    exact ⟨rfl, by simp [fcfsInit]⟩
  | _ =>
    simp only [init, queues, List.mem_singleton] at hq
    rw [hq]
    exact ⟨rfl, by simp [fcfsInit]⟩

theorem Of.add (hs : s.Of l) {req : Request} {sp : SchedParams} {rsz lsz : ℤ} {rem loc : Mem}
    {rc rc' : SchedRc} (h : s.add req sp rsz rem lsz loc rc = some (s', rc'))
    (hreq : ∀ k, l = .send k → req.queueOffset = k) : s'.Of l := by
  obtain ⟨q, -, hq, hqueues, -⟩ := add_cases h
  intro q' hq'
  rw [hqueues] at hq'
  rcases List.mem_or_eq_of_mem_set hq' with hq' | rfl
  · exact hs q' hq'
  · obtain ⟨hrecv, hreqs⟩ := hs q (List.mem_of_getElem? hq)
    refine ⟨hrecv, fun x hx k hk => ?_⟩
    rcases List.mem_append.1 hx with hx | hx
    · exact hreqs x hx k hk
    · rw [List.mem_singleton.1 hx]
      exact hreq k hk

/-- What is left after a packet belongs to the same queue. -/
theorem Of.next (hs : s.Of l) (save : Mem) (rc : SchedRc) : (s.next save rc).state.Of l := by
  obtain ⟨-, hstate, -⟩ | ⟨i, q, q', x, rest, hserved⟩ := s.next_cases save rc
  · rwa [hstate]
  · intro q₁ hq₁
    rw [hserved.queues] at hq₁
    rcases List.mem_or_eq_of_mem_set hq₁ with hq₁ | rfl
    · exact hs q₁ hq₁
    · obtain ⟨hrecv, hreqs⟩ := hs q (List.mem_of_getElem? hserved.get)
      rw [hserved.reqs] at hreqs
      refine ⟨hserved.recv.trans hrecv, fun y hy k hk => ?_⟩
      rcases hserved.outcome with ⟨-, -, hrest⟩ | ⟨-, -, hrest⟩
      · rw [hrest] at hy
        exact hreqs y (List.mem_cons_of_mem _ hy) k hk
      · rw [hrest] at hy
        have hx := hreqs x List.mem_cons_self k hk
        -- the request that was served has only changed what remains of it
        have hmem : y ∈ rest ∨ y = { x with rem := x.rem - x.psize } := by
          cases hd : s.discipline <;> simpa [hd, Discipline.requeue, or_comm] using hy
        rcases hmem with hy | rfl
        · exact hreqs y (List.mem_cons_of_mem _ hy) k hk
        · exact hx

theorem Of.call (hs : s.Of l) {save : Mem} {rc : SchedRc} {call : MethodCall}
    (h : (s.next save rc).call = some call) : ∃ (x : QItem) (another : Bool),
      call = x.call (decide (l = .recv)) another ∧ ∀ k, l = .send k → x.req.queueOffset = k := by
  obtain ⟨-, -, -, hnone⟩ | ⟨i, q, q', x, rest, hserved⟩ := s.next_cases save rc
  · rw [hnone] at h
    cases h
  · obtain ⟨hrecv, hreqs⟩ := hs q (List.mem_of_getElem? hserved.get)
    obtain ⟨another, hcall⟩ := hserved.call
    rw [h, hrecv] at hcall
    exact ⟨x, another, Option.some.inj hcall,
      hreqs x (by rw [hserved.reqs]; exact List.mem_cons_self)⟩

end Sched

/-! ### Events -/

/-- The requests in the schedulers belong to their queues. -/
def BaseState.Sorted (ns : BaseState) : Prop := ∀ l s, ns.sched? l = some s → s.Of l

/-- One packet of a queue is handed over. -/
def IsPacketOf (l : Lane) (outs : List BaseOut) : Prop :=
  ∃ (x : QItem) (another : Bool), outs = [.call (x.call (decide (l = .recv)) another)] ∧
    ∀ k, l = .send k → x.req.queueOffset = k

/-- What a base LP sends without a step of a loop. -/
def BaseOut.Quiet : BaseOut → Prop
  | .payload .. | .newMsg .. => True
  | .schedNext .. | .call .. => False

/-- What an event does to the loops; it is a wake-up for the queue `w`, if that is given. -/
inductive Handover (ns : BaseState) : Option Lane → BaseState → List BaseOut → Prop
  /-- A message arrives, and no loop has to be started. -/
  | quiet {ns' : BaseState} {outs : List BaseOut} (loops : ∀ l, ns'.loop? l = ns.loop? l)
      (quiet : ∀ o ∈ outs, o.Quiet) : Handover ns none ns' outs
  /-- A message starts the loop of its queue. -/
  | start {ns' : BaseState} {outs : List BaseOut} (l : Lane) (idle : ns.loop? l = some 0)
      (loops : ∀ l', ns'.loop? l' = (ns.setLoop l 1).loop? l') (packet : IsPacketOf l outs) :
      Handover ns none ns' outs
  /-- The loop ends, as its scheduler is empty. -/
  | stop {ns' : BaseState} {outs : List BaseOut} (l : Lane) (s : Sched)
      (sched : ns.sched? l = some s) (empty : s.IsEmpty) (state : ns' = ns.setLoop l 0)
      (nothing : outs = []) : Handover ns (some l) ns' outs
  /-- The loop makes a step. -/
  | goOn {ns' : BaseState} {outs : List BaseOut} (l : Lane)
    (loops : ∀ l', ns'.loop? l' = ns.loop? l')
      (packet : IsPacketOf l outs) : Handover ns (some l) ns' outs

section

variable {c : BaseCtx} {sv : Servers} {sv₀ sv₁ : Option Servers} {ns : BaseState} {b : BaseBf}
  {m : BaseMsg} {now poffset : STime} {res : BaseResult} {l : Lane} {e : BaseEvent}

theorem BaseState.Sorted.setSched (h : ns.Sorted) {s : Sched} (hs : s.Of l) :
    (ns.setSched l s).Sorted := by
  intro l' s' hs'
  rcases BaseState.sched?_setSched_eq_some hs' with ⟨rfl, rfl⟩ | ⟨-, hs'⟩
  · exact hs
  · exact h l' s' hs'

theorem BaseState.Sorted.setLoop (h : ns.Sorted) (f : ℕ) : (ns.setLoop l f).Sorted :=
  fun l' s' hs' => h l' s' (by simpa using hs')

theorem BaseState.Sorted.takeMsgId (h : ns.Sorted) : ns.takeMsgId.Sorted :=
  fun l s hs => h l s (by simpa using hs)

theorem BaseState.sorted_init (netId : NetId) (nicsPerRouter : ℕ) (params : BaseParams)
    (draws : ℕ) : (BaseState.init netId nicsPerRouter params draws).Sorted := by
  intro l s hs
  cases l with
  | recv =>
    obtain rfl := Option.some.inj hs
    exact Sched.init_of _ .recv
  | send q =>
    rw [(List.mem_replicate.1 (List.mem_of_getElem? hs)).2]
    exact Sched.init_of _ (.send q)

/-- A wake-up ends the loop of its queue, or a packet of the queue is handed over. -/
theorem handleSchedNext_handover (hns : ns.Sorted) (hr : ¬ ns.Reschedules)
    (h : handleSchedNext c ns b m poffset = some res) : res.state.Sorted ∧
      res.state.netId = ns.netId ∧ Handover ns (some m.lane) res.state res.outs := by
  obtain ⟨s, f, hs, -, -, ⟨he, hstate, -, -, houts⟩ | ⟨-, -, call, hcall, hstate⟩⟩ :=
    handleSchedNext_cases h
  · rw [hstate, houts]
    exact ⟨hns.setLoop 0, by cases m.lane <;> rfl, .stop m.lane s hs he rfl rfl⟩
  · rw [if_neg hr] at hstate
    rw [hstate.1, hstate.2]
    obtain ⟨x, another, rfl, hx⟩ := (hns _ _ hs).call hcall
    exact ⟨hns.setSched ((hns _ _ hs).next _ _), by cases m.lane <;> rfl,
      .goOn m.lane (fun l => by simp) ⟨x, another, rfl, hx⟩⟩

/-- A new message leaves the loops alone, or starts the loop of an idle queue with a packet. -/
theorem handleNewMsg_handover (hns : ns.Sorted) (hr : ¬ ns.Reschedules)
    (h : handleNewMsg c sv ns b m now poffset = some res) : res.state.Sorted ∧
      res.state.netId = ns.netId ∧ Handover ns none res.state res.outs := by
  unfold handleNewMsg at h
  split_ifs at h with hgid hreq
  · unfold sameNic at h
    simp only [Option.bind_eq_bind, Option.bind_eq_some_iff, Option.some.injEq] at h
    obtain ⟨queue, -, t, -, rfl⟩ := h
    refine ⟨fun l s hs => hns l s (by cases l <;> exact hs), rfl,
      .quiet (fun l => by cases l <;> rfl) fun o ho => ?_⟩
    rcases List.mem_append.1 ho with ho | ho
    all_goals
      rw [List.mem_singleton.1 (List.mem_ite_nil_right.1 ho).2]
      trivial
  · obtain rfl := Option.some.inj h
    refine ⟨fun l s hs => hns l s (by cases l <;> exact hs), rfl,
      .quiet (fun l => by cases l <;> rfl) fun o ho => ?_⟩
    rw [List.mem_singleton.1 ho]
    trivial
  · obtain ⟨queue, s, f, s', rc', -, hs, hf, hadd, h⟩ := toSched_cases h
    have hof : s'.Of (m.accepted ns now queue).lane := by
      refine (hns _ _ hs).add hadd fun k hk => ?_
      by_cases hrecv : m.isFromRemote = true
      · simp [BaseMsg.lane, BaseMsg.accepted, hrecv] at hk
      · simpa [BaseMsg.lane, BaseMsg.accepted, hrecv] using hk
    have hnet : ((ns.takeMsgId.setSched (m.accepted ns now queue).lane s').setLoop
        (m.accepted ns now queue).lane 1).netId = ns.netId := by
      cases (m.accepted ns now queue).lane <;> rfl
    split_ifs at h with h0
    · subst h0
      have hr' : ¬ ((ns.takeMsgId.setSched (m.accepted ns now queue).lane s').setLoop
          (m.accepted ns now queue).lane 1).Reschedules := by
        rw [BaseState.Reschedules, hnet]
        exact hr
      obtain ⟨hsorted, hnet', hover⟩ :=
        handleSchedNext_handover ((hns.takeMsgId.setSched hof).setLoop 1) hr' h
      refine ⟨hsorted, hnet'.trans hnet, ?_⟩
      generalize hw : some (BaseMsg.lane { m.accepted ns now queue with rc := rc' }) = w at hover
      cases hover with
      | stop l s₁ hs₁ he =>
        -- the queue holds the new message, so the loop goes on
        obtain rfl := Option.some.inj hw
        have htaken : ns.takeMsgId.sched? (m.accepted ns now queue).lane = some s := by
          simpa using hs
        have hs' := BaseState.sched?_setSched_self s' htaken
        rw [BaseState.sched?_setLoop] at hs₁
        exact absurd (Option.some.inj (hs'.symm.trans hs₁) ▸ he) (Sched.not_isEmpty_of_add hadd)
      | goOn l hloop hpacket =>
        obtain rfl := Option.some.inj hw
        refine .start _ hf (fun l => ?_) hpacket
        rw [hloop l]
        cases (m.accepted ns now queue).lane <;> cases l <;> rfl
      | quiet | start => cases hw
    · rw [h]
      refine ⟨hns.takeMsgId.setSched hof, ?_, .quiet (fun l => by simp) (by simp)⟩
      cases (m.accepted ns now queue).lane <;> rfl

/-- **What an event does to the loops.** -/
theorem baseEvent_handover (hns : ns.Sorted) (hr : ¬ ns.Reschedules) (hd : ¬ e.Dropped c)
    (h : baseEvent c sv₀ ns e = some (sv₁, res)) : res.state.Sorted ∧ res.state.netId = ns.netId ∧
      Handover ns (if e.type = .schedNext then some e.msg.lane else none) res.state res.outs := by
  cases ht : e.type with
  | newMsg =>
    obtain ⟨sv, -, h⟩ := baseEvent_newMsg ht h
    exact handleNewMsg_handover hns hr h
  | schedNext => exact handleSchedNext_handover hns hr (baseEvent_schedNext ht hd h)

end

end CodesSim
