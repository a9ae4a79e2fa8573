import CodesSim.Base.Rollback
import CodesSim.Lib.Slots

/-!
# The scheduling loop as a token

Networks that leave it to the base LP to go on with a scheduling loop (`SIMPLEP2P`, `TORUS`) keep
it running with a `MN_BASE_SCHED_NEXT` that the LP sends to itself.  Here the LP is put together
with the wake-ups in flight (`LoopState`), which are delivered in any order and interleaved with
messages in any way (`loopMachine`).

The wake-up of a queue is a token: the loop flag counts the wake-ups in flight for the queue
(`LoopState.Inv`).  So there is at most one, there is one whenever a message waits, and the loop
that a message starts is running when `handle_new_msg` returns.

`handle_sched_next` does not set `created_in_surrogate` in the wake-up it sends, which therefore
holds whatever the event buffer held before (`LoopLabel.stale`), and `model_net_base_event` drops
a wake-up in which it is not zero.  The invariant is about runs in which it is zero;
`stale_wakeUp_lost` shows a queue stranded when it is not.
-/

namespace CodesSim

/-- A `MN_BASE_SCHED_NEXT` in flight: the fields that are read when it is delivered. -/
structure WakeUp where
  isFromRemote : Bool
  queueOffset : ℕ
  createdInSurrogate : Bool

/-- The queue a wake-up is for. -/
def WakeUp.lane (w : WakeUp) : Lane := if w.isFromRemote then .recv else .send w.queueOffset

/-- The wake-ups among the effects of an event, put into buffers with a left-over value. -/
def wakeUps (stale : Bool) (outs : List BaseOut) : List WakeUp :=
  outs.filterMap fun
    | .schedNext _ r q => some ⟨r, q, stale⟩
    | _ => none

/-- The base LP and the wake-ups in flight. -/
structure LoopState where
  servers : Option Servers
  ns : BaseState
  inFlight : List WakeUp

/-- A message arrives or a wake-up is delivered.  `stale` is the value that the buffer of a new
wake-up holds where `handle_sched_next` does not write. -/
inductive LoopLabel where
  | arrive (m : BaseMsg) (now poffset : STime) (stale : Bool)
  /-- The wake-up at position `i`; the fields that are not read come from `m`. -/
  | deliver (i : ℕ) (m : BaseMsg) (now poffset : STime) (stale : Bool)

/-- The left-over value of a step. -/
def LoopLabel.stale : LoopLabel → Bool
  | .arrive _ _ _ b => b
  | .deliver _ _ _ _ b => b

/-- The event of a wake-up. -/
def WakeUp.event (w : WakeUp) (m : BaseMsg) (now poffset : STime) : BaseEvent :=
  ⟨.schedNext, { m with
    isFromRemote := w.isFromRemote
    createdInSurrogate := w.createdInSurrogate
    req := { m.req with queueOffset := w.queueOffset } }, now, poffset⟩

/-- The base LP with its wake-ups. -/
def loopMachine (c : BaseCtx) : Machine LoopState LoopLabel where
  step x
    | .arrive m now poffset stale =>
      (baseEvent c x.servers x.ns ⟨.newMsg, m, now, poffset⟩).map fun y =>
        ⟨y.1, y.2.state, x.inFlight ++ wakeUps stale y.2.outs⟩
    | .deliver i m now poffset stale =>
      x.inFlight[i]?.bind fun w =>
        (baseEvent c x.servers x.ns (w.event m now poffset)).map fun y =>
          ⟨y.1, y.2.state, x.inFlight.eraseIdx i ++ wakeUps stale y.2.outs⟩

/-- The wake-ups in flight for a queue. -/
def numFor (ws : List WakeUp) (l : Lane) : ℕ := ws.countP fun w => w.lane = l

/-! ### What one event does to the loops -/

variable {c : BaseCtx} {sv : Servers} {ns : BaseState} {b : BaseBf} {m : BaseMsg}
  {now poffset : STime} {res : BaseResult}

theorem handleSchedNext_wakeUps (hr : ns.Reschedules) (stale : Bool)
    (h : handleSchedNext c ns b m poffset = some res) :
    (∃ s, ns.sched? m.lane = some s ∧ s.IsEmpty ∧ res.state = ns.setLoop m.lane 0 ∧
      wakeUps stale res.outs = []) ∨
    (∃ s, ns.sched? m.lane = some s ∧ ¬ s.IsEmpty ∧ (∀ l, res.state.loop? l = ns.loop? l) ∧
      res.state.Reschedules ∧
      wakeUps stale res.outs = [⟨m.isFromRemote, m.req.queueOffset, stale⟩]) := by
  obtain ⟨s, f, hs, hf, -, ⟨he, hstate, -, -, houts⟩ | ⟨hne, -, call, -, hstate⟩⟩ :=
    handleSchedNext_cases h
  · exact .inl ⟨s, hs, he, hstate, by rw [houts]; rfl⟩
  · rw [if_pos hr] at hstate
    obtain ⟨hstate, houts⟩ := hstate
    refine .inr ⟨s, hs, hne, fun l => by simp [hstate], by simpa [hstate] using hr, ?_⟩
    rw [houts]
    rfl

theorem startLoop_wakeUps (hr : ns.Reschedules) (stale : Bool) {q : Enqueued}
    (hq : enqueue c sv ns b m now = some q) (h0 : q.inLoop = 0)
    (h : startLoop c q poffset = some res) :
    (∀ l, res.state.loop? l = (ns.setLoop q.msg.lane 1).loop? l) ∧
      ns.loop? q.msg.lane = some 0 ∧ res.state.Reschedules ∧
      wakeUps stale res.outs = [⟨q.msg.isFromRemote, q.msg.req.queueOffset, stale⟩] := by
  obtain ⟨queue, s, s', rc', -, hs, hf, hadd, hstate, hmsg, -⟩ := enqueue_cases hq
  have hlane : q.msg.lane = (m.accepted ns now queue).lane := by rw [hmsg]; rfl
  rw [← hlane] at hs hf hstate
  have hsched : (q.state.setLoop q.msg.lane 1).sched? q.msg.lane = some s' := by
    rw [BaseState.sched?_setLoop, hstate]
    exact BaseState.sched?_setSched_self s' (by simpa using hs)
  have hr' : (q.state.setLoop q.msg.lane 1).Reschedules := by
    simpa [hstate] using hr
  -- the queue holds the new message, so the loop goes on
  obtain ⟨s₁, hs₁, he, -⟩ | ⟨s₁, -, -, hloop, hres, hw⟩ := handleSchedNext_wakeUps hr' stale h
  · rw [hsched] at hs₁
    exact absurd (Option.some.inj hs₁ ▸ he) (Sched.not_isEmpty_of_add hadd)
  · refine ⟨fun l => ?_, h0 ▸ hf, hres, hw⟩
    rw [hloop l, hstate]
    cases q.msg.lane <;> cases l <;> rfl

theorem handleNewMsg_wakeUps (hr : ns.Reschedules) (stale : Bool)
    (h : handleNewMsg c sv ns b m now poffset = some res) :
    res.state.Reschedules ∧
    ((∀ l, res.state.loop? l = ns.loop? l) ∧ wakeUps stale res.outs = [] ∨
      ∃ w : WakeUp, w.createdInSurrogate = stale ∧ ns.loop? w.lane = some 0 ∧
        (∀ l, res.state.loop? l = (ns.setLoop w.lane 1).loop? l) ∧
        wakeUps stale res.outs = [w]) := by
  unfold handleNewMsg at h
  split_ifs at h with hgid hreq
  · unfold sameNic at h
    simp only [Option.bind_eq_bind, Option.bind_eq_some_iff, Option.some.injEq] at h
    obtain ⟨queue, -, t, -, rfl⟩ := h
    refine ⟨hr, .inl ⟨fun l => by cases l <;> rfl, ?_⟩⟩
    simp only [wakeUps]
    split_ifs <;> rfl
  · obtain rfl := Option.some.inj h
    exact ⟨hr, .inl ⟨fun l => by cases l <;> rfl, rfl⟩⟩
  · unfold toSched at h
    obtain ⟨q, hq, h⟩ := Option.bind_eq_some_iff.1 h
    split_ifs at h with h0
    · obtain ⟨res', hres, h⟩ := Option.bind_eq_some_iff.1 h
      split_ifs at h
      obtain rfl := Option.some.inj h
      obtain ⟨hloop, hf, hr', hw⟩ := startLoop_wakeUps hr stale hq h0 hres
      exact ⟨hr', .inr ⟨⟨q.msg.isFromRemote, q.msg.req.queueOffset, stale⟩, rfl, hf, hloop, hw⟩⟩
    · obtain rfl := Option.some.inj h
      obtain ⟨queue, s, s', rc', -, -, -, -, hstate, -⟩ := enqueue_cases hq
      rw [hstate]
      exact ⟨by simpa using hr, .inl ⟨fun l => by simp, rfl⟩⟩

/-! ### The invariant -/

namespace LoopState

/-- The invariant: the loop flags count the wake-ups in flight. -/
structure Inv (x : LoopState) : Prop where
  base : x.ns.Inv
  net : x.ns.Reschedules
  clean : ∀ w ∈ x.inFlight, w.createdInSurrogate = false
  count : ∀ l f, x.ns.loop? l = some f → f = numFor x.inFlight l

variable {x : LoopState}

theorem numFor_append_singleton (ws : List WakeUp) (w : WakeUp) (l : Lane) :
    numFor (ws ++ [w]) l = numFor ws l + if l = w.lane then 1 else 0 := by
  simp only [numFor, List.countP_append, List.countP_singleton, decide_eq_true_eq]
  by_cases h : w.lane = l
  · simp [h]
  · simp [h, Ne.symm h]

theorem numFor_eraseIdx {ws : List WakeUp} {i : ℕ} {w : WakeUp} (hw : ws[i]? = some w) (l : Lane) :
    numFor ws l = numFor (ws.eraseIdx i) l + if l = w.lane then 1 else 0 := by
  simp only [numFor, Slots.countP_eraseIdx hw, decide_eq_true_eq]
  by_cases h : w.lane = l
  · simp [h]
  · simp [h, Ne.symm h]

theorem Inv.arrive (hx : x.Inv) {stale : Bool} (hstale : stale = false) (sv' : Option Servers)
    (hinv : res.state.Inv) (h : handleNewMsg c sv x.ns b m now poffset = some res) :
    Inv ⟨sv', res.state, x.inFlight ++ wakeUps stale res.outs⟩ := by
  obtain ⟨hr, ⟨hloop, hw⟩ | ⟨w, hs, h0, hloop, hw⟩⟩ := handleNewMsg_wakeUps hx.net stale h
  · rw [hw, List.append_nil]
    exact ⟨hinv, hr, hx.clean, fun l f hf => hx.count l f (hloop l ▸ hf)⟩
  · rw [hw]
    refine ⟨hinv, hr, fun w' hw' => ?_, fun l f hf => ?_⟩
    · rcases List.mem_append.1 hw' with hw' | hw'
      · exact hx.clean w' hw'
      · rw [List.mem_singleton.1 hw', hs, hstale]
    · rw [numFor_append_singleton]
      simp only at hf
      rw [hloop l] at hf
      rcases BaseState.loop?_setLoop_eq_some hf with ⟨rfl, rfl⟩ | ⟨hne, hf⟩
      · have := hx.count _ _ h0
        simp only [↓reduceIte]
        omega
      · rw [if_neg hne]
        exact hx.count l f hf

theorem Inv.deliver (hx : x.Inv) {stale : Bool} (hstale : stale = false) (sv' : Option Servers)
    {i : ℕ} {w : WakeUp} (hw : x.inFlight[i]? = some w) (hinv : res.state.Inv)
    (h : handleSchedNext c x.ns b (w.event m now poffset).msg poffset = some res) :
    Inv ⟨sv', res.state, x.inFlight.eraseIdx i ++ wakeUps stale res.outs⟩ := by
  have hlane : (w.event m now poffset).msg.lane = w.lane := rfl
  have hclean : ∀ w' ∈ x.inFlight.eraseIdx i, w'.createdInSurrogate = false := fun w' hw' =>
    hx.clean w' (List.mem_of_mem_eraseIdx hw')
  have hcount := numFor_eraseIdx hw
  obtain ⟨s, -, -, hstate, hws⟩ | ⟨s, -, -, hloop, hr, hws⟩ :=
    handleSchedNext_wakeUps hx.net stale h
  · rw [hws, List.append_nil]
    refine ⟨hinv, by simpa [hstate] using hx.net, hclean, fun l f hf => ?_⟩
    simp only [hstate, hlane] at hf ⊢
    have hc := hcount l
    rcases BaseState.loop?_setLoop_eq_some hf with ⟨rfl, rfl⟩ | ⟨hne, hf⟩
    · -- the flag was one, and this was the only wake-up
      obtain ⟨f₀, hf₀⟩ : ∃ f₀, x.ns.loop? w.lane = some f₀ := by
        obtain ⟨-, f₀, -, hf₀, -⟩ := handleSchedNext_cases h
        exact ⟨f₀, hf₀⟩
      have h1 := hx.base.flag_le _ _ hf₀
      have h2 := hx.count _ _ hf₀
      simp only [↓reduceIte] at hc
      omega
    · have h2 := hx.count _ _ hf
      rw [if_neg hne] at hc
      omega
  · rw [hws]
    refine ⟨hinv, hr, fun w' hw' => ?_, fun l f hf => ?_⟩
    · rcases List.mem_append.1 hw' with hw' | hw'
      · exact hclean w' hw'
      · rw [List.mem_singleton.1 hw', hstale]
    · simp only [hloop l] at hf
      have h2 := hx.count _ _ hf
      have hc := hcount l
      rw [numFor_append_singleton]
      exact h2.trans hc

end LoopState

theorem loopMachine_inv {x x' : LoopState} {l : LoopLabel} (hx : x.Inv) (hl : l.stale = false)
    (h : (loopMachine c).step x l = some x') : x'.Inv := by
  cases l with
  | arrive m now poffset stale =>
    simp only [loopMachine, Option.map_eq_some_iff, Prod.exists] at h
    obtain ⟨sv', res, h, rfl⟩ := h
    obtain ⟨sv, -, hnew⟩ := baseEvent_newMsg rfl h
    exact hx.arrive hl sv' (baseEvent_inv hx.base h) hnew
  | deliver i m now poffset stale =>
    simp only [loopMachine, Option.bind_eq_some_iff, Option.map_eq_some_iff, Prod.exists] at h
    obtain ⟨w, hw, sv', res, h, rfl⟩ := h
    have hd : ¬ (w.event m now poffset).Dropped c := fun hd => by
      have := hx.clean w (List.mem_of_getElem? hw)
      exact Bool.false_ne_true (this.symm.trans hd.2.2)
    exact hx.deliver hl sv' hw (baseEvent_inv hx.base h) (baseEvent_schedNext rfl hd h)

/-- The LP at the start, with no wake-up in flight. -/
def LoopState.init (netId : NetId) (nicsPerRouter : ℕ) (params : BaseParams) (draws : ℕ)
    (servers : Option Servers) : LoopState := ⟨servers, .init netId nicsPerRouter params draws, []⟩

theorem LoopState.init_inv {netId : NetId} (hnet : netId = .simplep2p ∨ netId = .torus)
    (nicsPerRouter : ℕ) {params : BaseParams} (draws : ℕ) (hp : 0 < params.packetSize)
    (servers : Option Servers) : (init netId nicsPerRouter params draws servers).Inv where
  base := BaseState.init_inv netId nicsPerRouter draws hp
  net := hnet
  clean := by simp [init]
  count l f hf := by
    cases l with
    | recv => exact (Option.some.inj hf).symm
    | send q => exact (List.mem_replicate.1 (List.mem_of_getElem? hf)).2

/-- **The wake-up of a queue is a token.**  In every state reached by arrivals of messages and
deliveries of wake-ups in any order, if no wake-up was put into a buffer with a left-over mark:
the loop flag of a queue is the number of wake-ups in flight for it, at most one, and a queue
whose flag is zero is empty.  A message that starts a loop finds it running. -/
theorem loop_flag_counts_wakeUps {netId : NetId} (hnet : netId = .simplep2p ∨ netId = .torus)
    (nicsPerRouter : ℕ) {params : BaseParams} (draws : ℕ) (hp : 0 < params.packetSize)
    (servers : Option Servers) (ls : List LoopLabel) (hls : ∀ l ∈ ls, l.stale = false)
    {x : LoopState}
    (h : (loopMachine c).run (.init netId nicsPerRouter params draws servers) ls = some x) :
    (∀ l f, x.ns.loop? l = some f →
      f = numFor x.inFlight l ∧ f ≤ 1 ∧ (f = 0 → ∀ s, x.ns.sched? l = some s → s.IsEmpty)) ∧
    (∀ sv b m now poffset q res, enqueue c sv x.ns b m now = some q → q.inLoop = 0 →
      startLoop c q poffset = some res → res.state.loop? q.msg.lane = some 1) := by
  have hx : x.Inv := Machine.run_invariant (fun _ _ _ => loopMachine_inv)
    (LoopState.init_inv hnet nicsPerRouter draws hp servers) hls h
  refine ⟨fun l f hf => ⟨hx.count l f hf, hx.base.flag_le l f hf, ?_⟩, ?_⟩
  · rintro rfl s hs
    exact hx.base.idle l s hf hs
  · intro sv b m now poffset q res hq h0 hres
    obtain ⟨hloop, hf, -⟩ := startLoop_wakeUps hx.net false hq h0 hres
    rw [hloop]
    exact BaseState.loop?_setLoop_self hf

/-! ### A torus NIC with one injection queue -/

/-- A NIC (LP 1) and a server (LP 0). -/
def torusCtx : BaseCtx :=
  ⟨[⟨"GRP", 1, [⟨"nw-lp", none, 1⟩, ⟨"modelnet_torus", none, 1⟩]⟩], 1, 0, fun _ => 1, false⟩

/-- Its parameters: packets of 64 bytes. -/
def torusParams : BaseParams := ⟨⟨.fcfs, 0, .fcfs⟩, 64, 1, 0, 1⟩

/-- A message of two packets to another NIC. -/
def twoPacketMsg : BaseMsg :=
  ⟨{ (default : Request) with destMnLp := 9, msgSize := 100 }, false, false, 0, ⟨-1⟩,
    default, false, fun _ => 0⟩

/-- A message of two packets starts the loop; its wake-up goes into a buffer in which
`created_in_surrogate` is not zero and is dropped when it is delivered.  Then the loop flag is set
and the second packet waits, but no wake-up is in flight. -/
theorem stale_wakeUp_lost : ∃ x,
    (loopMachine torusCtx).run (.init .torus 1 torusParams 0 none)
      [.arrive twoPacketMsg 0 0 true, .deliver 0 twoPacketMsg 1 0 false] = some x ∧
    x.ns.loop? (.send 0) = some 1 ∧ numFor x.inFlight (.send 0) = 0 ∧
    ∃ s, x.ns.sched? (.send 0) = some s ∧ ¬ s.IsEmpty :=
  ⟨_, rfl, rfl, rfl, _, rfl, fun he => by
    have hturn : some 0 = none := Eq.trans rfl (Sched.turn_eq_none.2 he)
    cases hturn⟩

theorem loop_flag_counts_wakeUps_torus : ∃ x,
    (loopMachine torusCtx).run (.init .torus 1 torusParams 0 none)
      [.arrive twoPacketMsg 0 0 false, .deliver 0 twoPacketMsg 1 0 false] = some x ∧
    x.ns.loop? (.send 0) = some 1 ∧ numFor x.inFlight (.send 0) = 1 := by
  have hls : ∀ l ∈ [LoopLabel.arrive twoPacketMsg 0 0 false,
      LoopLabel.deliver 0 twoPacketMsg 1 0 false], l.stale = false := by simp [LoopLabel.stale]
  refine ⟨_, rfl, rfl, ?_⟩
  exact ((loop_flag_counts_wakeUps (c := torusCtx) (.inr rfl) 1 0
    (show 0 < torusParams.packetSize by decide) none _ hls rfl).1 (.send 0) 1 rfl).1.symm

end CodesSim
