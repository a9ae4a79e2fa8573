import CodesSim.Base.Handover
import CodesSim.Dally.Delivery

/-!
# The injection token of a NIC

On a dragonfly network the scheduling loop of an injection queue is kept going by the terminal.
The base LP hands a packet over with a `T_GENERATE`; `packet_generate` asks for the next one with
an idle event, which is a `MN_BASE_SCHED_NEXT`, or notes in `issueIdle` that it has to be asked for
later, and then `packet_send` does.  So a token goes round: a wake-up in flight, a `T_GENERATE` in
flight, or the flag.

`nicMachine` puts the base LP, the terminal and the events between them together.  Messages arrive
and events are delivered in any order.

The token of a queue is unique (`NicState.TokenOk`) as long as `packet_generate` asks the queue the
packet came from.  It does so if there is one injection queue and the packet stays on rail 0
(`AsksOwnQueue`).  With several queues it asks all of them after every packet, and a rail selected
because of link failures is taken for the number of the queue.
-/

namespace CodesSim.Dally

open Function

/-- The surroundings of a NIC: those of the base LP, the links, the id of the terminal and the
terminals that LPs belong to. -/
structure Nic (p : Param) where
  base : BaseCtx
  topology : Topology p
  terminal : ℕ
  terminalOf : Lpid → ℕ

/-- The base LP, the terminal and the events in flight between them. -/
structure NicState where
  servers : Option Servers
  ns : BaseState
  terminal : Terminal
  wakeUps : List WakeUp
  /-- The `T_GENERATE` events; `railId` is the queue that the packet was in. -/
  generates : List Msg

/-- What happens at a NIC.  Events that are not given with their position come from outside. -/
inductive NicLabel where
  /-- A message arrives at the base LP. -/
  | arrive (m : BaseMsg) (now poffset : STime) (env : Env)
  /-- The wake-up at position `i` is delivered; the fields that are not read come from `m`. -/
  | schedNext (i : ℕ) (m : BaseMsg) (now poffset : STime) (env : Env)
  /-- The `T_GENERATE` at position `i` is delivered. -/
  | generate (i : ℕ) (env : Env)
  /-- Any other event of the terminal: `T_SEND`, `T_BUFFER`, `T_ARRIVE` and so on. -/
  | event (msg : Msg) (env : Env)

variable {p : Param}

/-- The `T_GENERATE` events that calls of the network method send. -/
def Nic.generated (n : Nic p) (env : Env) (outs : List BaseOut) : List Msg :=
  outs.filterMap fun
    | .call (.packet req _ size _ remote self last _) =>
      some (packetEvent env n.base.gid n.terminal (n.terminalOf req.destMnLp) req size remote self
        last)
    | _ => none

/-- The wake-ups that the idle events of the terminal are (`model_net_method_idle_event2`). -/
def Nic.idles (n : Nic p) (outs : List Out) : List WakeUp :=
  outs.filterMap fun
    | .idle _ queue => some ⟨false, queue, n.base.isFreezingOn⟩
    | _ => none

/-- A NIC.  On this network the base LP sends no wake-ups itself. -/
def nicMachine (n : Nic p) : Machine NicState NicLabel where
  step x
    | .arrive m now poffset env =>
      (baseEvent n.base x.servers x.ns ⟨.newMsg, m, now, poffset⟩).map fun y =>
        { x with servers := y.1, ns := y.2.state,
                 generates := x.generates ++ n.generated env y.2.outs }
    | .schedNext i m now poffset env =>
      x.wakeUps[i]?.bind fun w =>
        (baseEvent n.base x.servers x.ns (w.event m now poffset)).map fun y =>
          { x with servers := y.1, ns := y.2.state, wakeUps := x.wakeUps.eraseIdx i,
                   generates := x.generates ++ n.generated env y.2.outs }
    | .generate i env =>
      x.generates[i]?.bind fun msg =>
        (terminalEvent p n.topology env n.terminal x.terminal msg).map fun y =>
          { x with terminal := y.state, generates := x.generates.eraseIdx i,
                   wakeUps := x.wakeUps ++ n.idles y.outs }
    | .event msg env =>
      if msg.type = .tGenerate then none
      else
        (terminalEvent p n.topology env n.terminal x.terminal msg).map fun y =>
          { x with terminal := y.state, wakeUps := x.wakeUps ++ n.idles y.outs }

/-- The NIC at the start.  The base LP and the terminal read the number of injection queues from
the same place. -/
def NicState.init (p : Param) (nicsPerRouter : ℕ) (params : BaseParams) (draws : ℕ)
    (servers : Option Servers) : NicState where
  servers := servers
  ns := .init .dragonflyDally nicsPerRouter { params with numQueues := p.numInjectionQueues } draws
  terminal := .init
  wakeUps := []
  generates := []

/-- The `T_GENERATE` events in flight from a queue. -/
def numFrom (gs : List Msg) (q : ℕ) : ℕ := gs.countP fun g => g.railId = q

theorem numFrom_append (gs gs' : List Msg) (q : ℕ) :
    numFrom (gs ++ gs') q = numFrom gs q + numFrom gs' q := List.countP_append ..

theorem numFrom_eraseIdx {gs : List Msg} {i : ℕ} {g : Msg} (hg : gs[i]? = some g) (q : ℕ) :
    numFrom gs q = numFrom (gs.eraseIdx i) q + if g.railId = q then 1 else 0 := by
  simp only [numFrom, Slots.countP_eraseIdx hg, decide_eq_true_eq]

/-- The tokens of an injection queue. -/
def NicState.tokens (x : NicState) (q : ℕ) : ℕ :=
  numFor x.wakeUps (.send q) + numFrom x.generates q + (x.terminal.rails q).issueIdle

/-- Every injection queue has at most one token, and it has one while its loop is running; every
wake-up is for a queue that exists. -/
structure NicState.TokenOk (p : Param) (x : NicState) : Prop where
  le_one : ∀ q < p.numInjectionQueues, x.tokens q ≤ 1
  eq_one : ∀ q f, x.ns.loop? (.send q) = some f → f ≠ 0 → x.tokens q = 1
  exists_queue : ∀ w ∈ x.wakeUps, ∃ q < p.numInjectionQueues, w.lane = .send q

/-- What a step has to meet: a `T_GENERATE` is handled only with one injection queue, and if a rail
is selected for the packet, it is the rail that belongs to the queue. -/
def AsksOwnQueue (n : Nic p) (x : NicState) : NicLabel → Prop
  | .generate i env => p.numInjectionQueues = 1 ∧ ∀ msg rail draws, x.generates[i]? = some msg →
      selectsRail p n.topology →
      selectRail p n.topology env n.terminal x.terminal msg = some (rail, draws) → rail = 0
  | _ => True

/-! ### The base LP -/

/-- The `T_GENERATE` events that one packet of a queue makes: one for an injection queue, none for
the receive queue. -/
structure IsFrom (gs : List Msg) (l : Lane) : Prop where
  mem : ∀ g ∈ gs, g.type = .tGenerate ∧ l = .send g.railId
  count : ∀ q, numFrom gs q = if l = .send q then 1 else 0

/-- What the base LP of a NIC keeps. -/
structure BaseOk (ns : BaseState) : Prop where
  net : ns.netId = .dragonflyDally
  of : ns.Sorted

section

variable {n : Nic p} {env : Env} {ns : BaseState} {b : BaseBf} {m : BaseMsg} {sv : Servers}
  {now poffset : STime} {res : BaseResult} {l : Lane}

theorem isFrom_generated {outs : List BaseOut} (h : IsPacketOf l outs) :
    IsFrom (n.generated env outs) l := by
  obtain ⟨x, another, rfl, hx⟩ := h
  cases l with
  | recv =>
    simp only [QItem.call, decide_true, ↓reduceIte, Nic.generated, List.filterMap_cons,
      List.filterMap_nil]
    exact ⟨by simp, fun q => by simp [numFrom]⟩
  | send k =>
    have hk := hx k rfl
    simp only [QItem.call, reduceCtorEq, decide_false, Bool.false_eq_true, ↓reduceIte,
      Nic.generated, List.filterMap_cons, List.filterMap_nil]
    refine ⟨fun g hg => ?_, fun q => ?_⟩
    · rw [List.mem_singleton.1 hg]
      exact ⟨rfl, by rw [packetEvent, hk]⟩
    · simp [numFrom, packetEvent, hk]

theorem generated_quiet {outs : List BaseOut} (h : ∀ o ∈ outs, o.Quiet) :
    n.generated env outs = [] := by
  refine List.filterMap_eq_nil_iff.2 fun o ho => ?_
  cases o with
  | payload | newMsg => rfl
  | schedNext | call => exact (h _ ho).elim

theorem BaseOk.not_reschedules (h : BaseOk ns) : ¬ ns.Reschedules := by
  simp [BaseState.Reschedules, h.net]

theorem handleSchedNext_generated (hok : BaseOk ns)
    (h : handleSchedNext n.base ns b m poffset = some res) : BaseOk res.state ∧
      ((res.state = ns.setLoop m.lane 0 ∧ n.generated env res.outs = []) ∨
        ((∀ l, res.state.loop? l = ns.loop? l) ∧ IsFrom (n.generated env res.outs) m.lane)) := by
  obtain ⟨hsorted, hnet, hover⟩ := handleSchedNext_handover hok.of hok.not_reschedules h
  refine ⟨⟨hnet.trans hok.net, hsorted⟩, ?_⟩
  cases hover with
  | stop l s hs he hstate houts => exact .inl ⟨hstate, by rw [houts]; rfl⟩
  | goOn l hloop hpacket => exact .inr ⟨hloop, isFrom_generated hpacket⟩

theorem handleNewMsg_generated (hok : BaseOk ns)
    (h : handleNewMsg n.base sv ns b m now poffset = some res) : BaseOk res.state ∧
      ((∀ l, res.state.loop? l = ns.loop? l) ∧ n.generated env res.outs = [] ∨
        ∃ l, ns.loop? l = some 0 ∧ (∀ l', res.state.loop? l' = (ns.setLoop l 1).loop? l') ∧
          IsFrom (n.generated env res.outs) l) := by
  obtain ⟨hsorted, hnet, hover⟩ := handleNewMsg_handover hok.of hok.not_reschedules h
  refine ⟨⟨hnet.trans hok.net, hsorted⟩, ?_⟩
  cases hover with
  | quiet hloop hquiet => exact .inl ⟨hloop, generated_quiet hquiet⟩
  | start l h0 hloop hpacket => exact .inr ⟨l, h0, hloop, isFrom_generated hpacket⟩

end

/-! ### The terminal -/
variable {y : Result Terminal}


section

variable {n : Nic p} {env : Env} {s : Terminal} {msg : Msg} {res : Result Terminal}

theorem Rail.issueIdle_checkBw {x y : Rail × Saved} {k : ℕ} (h : Rail.checkBw p x k = some y) :
    y.1.issueIdle = x.1.issueIdle := by
  rw [Rail.checkBw] at h
  split at h
  · obtain ⟨consumption, -, rfl⟩ := Option.map_eq_some_iff.1 h
    split <;> rfl
  · cases h
    rfl

theorem Rail.issueIdle_foldlM_checkBw {levels : List ℕ} {x y : Rail × Saved}
    (h : levels.foldlM (Rail.checkBw p) x = some y) : y.1.issueIdle = x.1.issueIdle := by
  induction levels generalizing x with
  | nil =>
    cases h
    rfl
  | cons k levels ih =>
    obtain ⟨x', hx', h⟩ := Option.bind_eq_some_iff.1 h
    rw [ih h, Rail.issueIdle_checkBw hx']

variable {r : Rail}

theorem getNextVcg_issueIdle {sv : Saved} {y : Option ℕ × Bool × Rail × Saved}
    (h : getNextVcg p r sv = some y) : y.2.2.1.issueIdle = r.issueIdle := by
  rw [getNextVcg] at h
  split at h
  · cases h
    rfl
  · obtain ⟨x, hx, rfl⟩ := Option.map_eq_some_iff.1 h
    have hfold := Rail.issueIdle_foldlM_checkBw hx
    simp only [chooseVcg]
    split
    · exact hfold
    · split <;> exact hfold

theorem nextVcg_issueIdle {sv : Saved} {y : Option ℕ × Bool × Rail × Saved}
    (h : nextVcg p r sv = some y) : y.2.2.1.issueIdle = r.issueIdle := by
  rw [nextVcg] at h
  split at h
  · exact getNextVcg_issueIdle h
  · cases h
    rfl

theorem issueIdle_update (rails : ℕ → Rail) (k : ℕ) (r : Rail)
    (h : r.issueIdle = (rails k).issueIdle) (j : ℕ) :
    (update rails k r j).issueIdle = (rails j).issueIdle := by
  by_cases hj : j = k
  · subst hj
    simp [h]
  · simp [hj]

/-- What an event of the terminal does to the token of a rail: nothing, or the flag of a rail
becomes an idle event. -/
def Released (n : Nic p) (s s' : Terminal) (outs : List Out) : Prop :=
  (∀ k, (s'.rails k).issueIdle = (s.rails k).issueIdle) ∧ n.idles outs = [] ∨
    ∃ k, (s.rails k).issueIdle ≠ 0 ∧ (s'.rails k).issueIdle = 0 ∧
      (∀ j, j ≠ k → (s'.rails j).issueIdle = (s.rails j).issueIdle) ∧
      n.idles outs = [⟨false, k, n.base.isFreezingOn⟩]

theorem Rail.issueIdle_issueHeld (r : Rail) (sv : Saved) :
    (r.issueHeld env sv).1.issueIdle = 0 := by
  rw [Rail.issueHeld]
  split <;> rfl

theorem packetSendChunk_idle {vcg : ℕ} {c2 : Bool} {sv : Saved} {cur : Msg} {rest : List Msg}
    (h : packetSendChunk p env n.terminal s msg vcg c2 r sv cur rest = some y) :
    (∀ j, j ≠ msg.railId → (y.state.rails j).issueIdle = (s.rails j).issueIdle) ∧
      ((y.state.rails msg.railId).issueIdle = r.issueIdle ∧ n.idles y.outs = [] ∨
        r.issueIdle ≠ 0 ∧ (y.state.rails msg.railId).issueIdle = 0 ∧
          n.idles y.outs = [⟨false, msg.railId, n.base.isFreezingOn⟩]) := by
  obtain ⟨next, hnext, rfl⟩ := Option.map_eq_some_iff.1 h
  have hidle (more : Bool) : (next.2.2.1.goOn more).issueIdle = r.issueIdle := by
    have hsent : (r.sent p env vcg cur rest).issueIdle = r.issueIdle := rfl
    rw [Rail.goOn, ← hsent, ← nextVcg_issueIdle hnext]
    split <;> rfl
  simp only
  refine ⟨fun j hj => ?_, ?_⟩
  · rw [Terminal.setRail_rails_of_ne _ _ hj]
  · rw [Terminal.setRail_rails_self]
    -- whether the last chunk was sent and the loop goes on makes no difference
    split_ifs with hheld
    all_goals first
      | exact .inr ⟨(hidle _).symm.trans_ne hheld.1, Rail.issueIdle_issueHeld _ _, rfl⟩
      | exact .inl ⟨hidle _, rfl⟩

theorem packetSend_released (h : packetSend p env n.terminal s msg = some res) :
    Released n s res.state res.outs := by
  obtain ⟨⟨next, c2, r', sv'⟩, hnext, h⟩ := Option.bind_eq_some_iff.1 h
  have hidle : r'.issueIdle = (s.rails msg.railId).issueIdle := getNextVcg_issueIdle hnext
  cases next with
  | none =>
    obtain rfl := Option.some.inj h
    exact .inl ⟨issueIdle_update _ _ _ hidle, rfl⟩
  | some vcg =>
    simp only at h
    split at h
    · cases h
    · obtain ⟨hother, ⟨hself, houts⟩ | ⟨hne, hself, houts⟩⟩ := packetSendChunk_idle h
      · refine .inl ⟨fun k => ?_, houts⟩
        by_cases hk : k = msg.railId
        · rw [hk, hself]
          exact hidle
        · exact hother k hk
      · refine .inr ⟨msg.railId, ?_, hself, hother, houts⟩
        rwa [← hidle]

theorem Nic.idles_append (n : Nic p) (outs outs' : List Out) :
    n.idles (outs ++ outs') = n.idles outs ++ n.idles outs' := List.filterMap_append ..

theorem messageArrive_idle {bf : Bf} {complete : Bool} {outs : List Out}
    (h : messageArrive p env s msg bf complete outs = some res) (houts : n.idles outs = []) :
    res.state.rails = s.rails ∧ n.idles res.outs = [] := by
  have hnotes : n.idles (if complete ∧ p.notifyLatency then [latencyNote msg] else []) = [] := by
    split_ifs <;> rfl
  have hevent : ∀ data, n.idles [sendRemoteEvent env msg data] = [] := by
    intro data
    rw [sendRemoteEvent]
    split_ifs <;> rfl
  simp only [messageArrive, Option.ite_none_left_eq_some] at h
  obtain ⟨-, -, h⟩ := h
  split at h
  · obtain rfl := Option.some.inj h
    exact ⟨rfl, by rw [Nic.idles_append, houts, hnotes]; rfl⟩
  · obtain ⟨-, h⟩ := Option.ite_none_left_eq_some.1 h
    obtain rfl := Option.some.inj h
    refine ⟨rfl, ?_⟩
    rw [Nic.idles_append, Nic.idles_append, houts, hnotes]
    split
    · rfl
    · exact hevent _

variable {self : ℕ}

theorem packetArrive_idle (h : packetArrive p env self s msg = some res) :
    res.state.rails = s.rails ∧ n.idles res.outs = [] := by
  simp only [packetArrive, Option.ite_none_left_eq_some, Option.bind_eq_some_iff] at h
  obtain ⟨-, k, -, stats, -, h⟩ := h
  split at h
  · obtain rfl := Option.some.inj h
    refine ⟨?_, rfl⟩
    dsimp only
    split <;> rfl
  · have hcredit : n.idles [arrivalCredit p env msg] = [] := rfl
    have hidle := messageArrive_idle h hcredit
    exact hidle

theorem terminalBufUpdate_idle (h : terminalBufUpdate p env self s msg = some res) :
    (∀ k, (res.state.rails k).issueIdle = (s.rails k).issueIdle) ∧ n.idles res.outs = [] := by
  obtain ⟨vcg, -, rfl⟩ := Option.map_eq_some_iff.1 h
  constructor
  · intro k
    refine issueIdle_update s.rails msg.railId _ ?_ k
    rfl
  · dsimp only
    split <;> rfl

theorem terminalEvent_released (htype : msg.type ≠ .tGenerate)
    (h : terminalEvent p n.topology env n.terminal s msg = some res) :
    Released n s res.state res.outs := by
  unfold terminalEvent at h
  simp only at h
  split at h
  · exact absurd ‹_› htype
  · obtain ⟨hrails, houts⟩ := packetArrive_idle (n := n) h
    exact .inl ⟨fun k => by rw [hrails], houts⟩
  · exact packetSend_released h
  · exact .inl (terminalBufUpdate_idle h)
  · obtain rfl := Option.some.inj h
    refine .inl ⟨fun k => ?_, ?_⟩
    · simp only [issueBwMonitorEvent]
      split_ifs <;> rfl
    · simp only [issueBwMonitorEvent, Nic.idles]
      split_ifs <;> rfl
  · obtain rfl := Option.some.inj h
    exact .inl ⟨fun k => rfl, rfl⟩
  · cases h

theorem startLoop_issueIdle (rails : ℕ → Rail) (rail k : ℕ) :
    (startLoop rails rail k).issueIdle = (rails k).issueIdle := by
  rw [startLoop]
  split
  · refine issueIdle_update rails rail _ ?_ k
    rfl
  · rfl

theorem generateOn_idle (hone : p.numInjectionQueues = 1) (self draws vcg : ℕ) :
    let y := generateOn p n.topology env self s msg draws vcg
    (∀ j, j ≠ msg.railId → (y.state.rails j).issueIdle = (s.rails j).issueIdle) ∧
      ((y.state.rails msg.railId).issueIdle = (s.rails msg.railId).issueIdle ∧
          n.idles y.outs = [⟨false, msg.railId, n.base.isFreezingOn⟩] ∨
        (y.state.rails msg.railId).issueIdle = 1 ∧ n.idles y.outs = []) := by
  have hq : ∀ k, (update s.rails msg.railId
      ((s.rails msg.railId).enqueue p vcg (chunksOf p msg vcg)) k).issueIdle =
        (s.rails k).issueIdle := by
    refine issueIdle_update s.rails msg.railId _ ?_
    rfl
  have hidles : ∀ (a b : Prop) [Decidable a] [Decidable b] (outs : List Out),
      n.idles ((if a then [tBandwidthEvent env self] else []) ++ outs ++
        if b then [tSendEvent env self msg.railId 0] else []) = n.idles outs := by
    intro a b _ _ outs
    rw [Nic.idles_append, Nic.idles_append]
    split_ifs <;> simp [Nic.idles, tBandwidthEvent, tSendEvent]
  have hnot : ¬ p.numInjectionQueues > 1 := by omega
  simp only [generateOn, hidles, startLoop_issueIdle, askNext, if_neg hnot]
  split
  · exact ⟨fun j _ => hq j, .inl ⟨hq _, rfl⟩⟩
  · refine ⟨fun j hj => ?_, .inr ⟨?_, rfl⟩⟩
    · exact (congrArg Rail.issueIdle (update_of_ne hj _ _)).trans (hq j)
    · simp only [update_self]
      rfl

theorem terminalEvent_tGenerate (htype : msg.type = .tGenerate) {t : Topology p} :
    terminalEvent p t env self s msg = packetGenerate p t env self s { msg with numRngs := 0 } := by
  unfold terminalEvent
  simp only [htype]

theorem terminalEvent_generate (hone : p.numInjectionQueues = 1) (htype : msg.type = .tGenerate)
    (hrail : msg.railId = 0)
    (hsel : ∀ rail draws, selectsRail p n.topology →
      selectRail p n.topology env n.terminal s msg = some (rail, draws) → rail = 0)
    (h : terminalEvent p n.topology env n.terminal s msg = some res) :
    (∀ j, j ≠ 0 → (res.state.rails j).issueIdle = (s.rails j).issueIdle) ∧
      ((res.state.rails 0).issueIdle = (s.rails 0).issueIdle ∧
          n.idles res.outs = [⟨false, 0, n.base.isFreezingOn⟩] ∨
        (res.state.rails 0).issueIdle = 1 ∧ n.idles res.outs = []) := by
  rw [terminalEvent_tGenerate htype] at h
  simp only [packetGenerate, Option.ite_none_left_eq_some, Option.ite_none_right_eq_some,
    Option.bind_eq_some_iff, Option.map_eq_some_iff] at h
  obtain ⟨-, ⟨rail, draws⟩, hchoice, vcg, -, -, stats, -, rfl⟩ := h
  have h0 : rail = 0 := by
    split_ifs at hchoice with hs
    · exact hsel rail draws hs hchoice
    · rw [← hrail]
      exact (Prod.mk.inj (Option.some.inj hchoice)).1.symm
  subst h0
  exact @generateOn_idle p n env s
    (generatedMsg p env n.terminal s { msg with numRngs := 0 } 0 draws) hone n.terminal draws vcg

end

/-! ### The invariant -/

/-- The invariant of a NIC: the loop flag of a queue counts its tokens. -/
structure NicState.Inv (n : Nic p) (x : NicState) : Prop where
  base : BaseOk x.ns
  flags : ∀ q, (x.ns.loop? (.send q)).isSome ↔ q < p.numInjectionQueues
  wakeUps : ∀ w ∈ x.wakeUps, w.createdInSurrogate = n.base.isFreezingOn ∧
    ∃ q < p.numInjectionQueues, w.lane = .send q
  generates : ∀ g ∈ x.generates, g.type = .tGenerate ∧ g.railId < p.numInjectionQueues
  idle : ∀ q, p.numInjectionQueues ≤ q → (x.terminal.rails q).issueIdle = 0
  count : ∀ q f, x.ns.loop? (.send q) = some f → f = x.tokens q ∧ f ≤ 1

namespace NicState

variable {n : Nic p} {x x' : NicState} {env : Env}

theorem Inv.tokenOk (hx : x.Inv n) : x.TokenOk p where
  le_one q hq := by
    obtain ⟨f, hf⟩ := Option.isSome_iff_exists.1 ((hx.flags q).2 hq)
    have := hx.count q f hf
    omega
  eq_one q f hf hne := by
    have := hx.count q f hf
    omega
  exists_queue w hw := (hx.wakeUps w hw).2

theorem init_inv (n : Nic p) (nicsPerRouter : ℕ) (params : BaseParams) (draws : ℕ)
    (servers : Option Servers) : (init p nicsPerRouter params draws servers).Inv n where
  base := ⟨rfl, BaseState.sorted_init _ _ _ _⟩
  flags q := by simp [init, BaseState.init, BaseState.loop?]
  wakeUps := by simp [init]
  generates := by simp [init]
  idle q _ := rfl
  count q f hf := by
    have hf0 : f = 0 := (List.mem_replicate.1 (List.mem_of_getElem? hf)).2
    subst hf0
    exact ⟨rfl, Nat.zero_le 1⟩

/-- A new message that starts the loop of a queue makes its token. -/
theorem Inv.arrive (hx : x.Inv n) {sv : Servers} {sv' : Option Servers} {b : BaseBf} {m : BaseMsg}
    {now poffset : STime} {res : BaseResult}
    (h : handleNewMsg n.base sv x.ns b m now poffset = some res) :
    Inv n { x with servers := sv', ns := res.state,
                   generates := x.generates ++ n.generated env res.outs } := by
  obtain ⟨hok, ⟨hloop, hgen⟩ | ⟨l, h0, hloop, hfrom⟩⟩ :=
    @handleNewMsg_generated p n env x.ns b m sv now poffset res hx.base h
  · rw [hgen, List.append_nil]
    exact ⟨hok, fun q => by rw [hloop]; exact hx.flags q, hx.wakeUps, hx.generates, hx.idle,
      fun q f hf => hx.count q f (hloop _ ▸ hf)⟩
  · refine ⟨hok, fun q => ?_, hx.wakeUps, fun g hg => ?_, hx.idle, fun q f hf => ?_⟩
    · rw [hloop, BaseState.isSome_loop?_setLoop]
      exact hx.flags q
    · rcases List.mem_append.1 hg with hg | hg
      · exact hx.generates g hg
      · obtain ⟨htype, hlane⟩ := hfrom.mem g hg
        refine ⟨htype, (hx.flags _).1 ?_⟩
        rw [← hlane, h0]
        rfl
    · rw [hloop] at hf
      have hcount := hfrom.count q
      rcases BaseState.loop?_setLoop_eq_some hf with ⟨hl, rfl⟩ | ⟨hl, hf⟩
      · have h0' := hx.count q 0 (by rw [hl, h0])
        rw [if_pos hl.symm] at hcount
        simp only [tokens, numFrom_append, hcount] at h0' ⊢
        omega
      · have hq := hx.count q f hf
        rw [if_neg (Ne.symm hl)] at hcount
        simp only [tokens, numFrom_append, hcount] at hq ⊢
        omega

theorem Inv.schedNext (hx : x.Inv n) {sv' : Option Servers} {i : ℕ} {w : WakeUp}
    (hw : x.wakeUps[i]? = some w) {b : BaseBf} {m : BaseMsg} {now poffset : STime}
    {res : BaseResult}
    (h : handleSchedNext n.base x.ns b (w.event m now poffset).msg poffset = some res) :
    Inv n { x with servers := sv', ns := res.state, wakeUps := x.wakeUps.eraseIdx i,
                   generates := x.generates ++ n.generated env res.outs } := by
  have hlane : (w.event m now poffset).msg.lane = w.lane := rfl
  obtain ⟨k, hk, hwk⟩ := (hx.wakeUps w (List.mem_of_getElem? hw)).2
  obtain ⟨f₀, hf₀⟩ := Option.isSome_iff_exists.1 ((hx.flags k).2 hk)
  have hwakeUps : ∀ w' ∈ x.wakeUps.eraseIdx i, w'.createdInSurrogate = n.base.isFreezingOn ∧
      ∃ q < p.numInjectionQueues, w'.lane = .send q :=
    fun w' hw' => hx.wakeUps w' (List.mem_of_mem_eraseIdx hw')
  have herase := fun q => LoopState.numFor_eraseIdx hw (.send q)
  obtain ⟨hok, ⟨hstate, hgen⟩ | ⟨hloop, hfrom⟩⟩ :=
    @handleSchedNext_generated p n env x.ns b _ poffset res hx.base h
  · rw [hgen, List.append_nil]
    refine ⟨hok, fun q => ?_, hwakeUps, hx.generates, hx.idle, fun q f hf => ?_⟩
    · rw [hstate, BaseState.isSome_loop?_setLoop]
      exact hx.flags q
    · simp only [hstate, hlane] at hf
      have hq := herase q
      simp only [tokens]
      rcases BaseState.loop?_setLoop_eq_some hf with ⟨hl, rfl⟩ | ⟨hl, hf⟩
      · -- the flag was one, and this was the only token
        have hcount := hx.count q f₀ (by rw [hl, hwk, hf₀])
        rw [if_pos hl] at hq
        simp only [tokens] at hcount
        omega
      · have hcount := hx.count q f hf
        rw [if_neg hl] at hq
        simp only [tokens] at hcount
        omega
  · refine ⟨hok, fun q => ?_, hwakeUps, fun g hg => ?_, hx.idle, fun q f hf => ?_⟩
    · rw [hloop]
      exact hx.flags q
    · rcases List.mem_append.1 hg with hg | hg
      · exact hx.generates g hg
      · obtain ⟨htype, hg⟩ := hfrom.mem g hg
        rw [hlane, hwk] at hg
        exact ⟨htype, Lane.send.inj hg ▸ hk⟩
    · rw [hloop] at hf
      have hcount := hx.count q f hf
      have hq := herase q
      have hnew := hfrom.count q
      rw [hlane] at hnew
      simp only [eq_comm (a := w.lane)] at hnew
      simp only [tokens, numFrom_append, hnew] at hcount ⊢
      omega

theorem Inv.generate (hx : x.Inv n) (hone : p.numInjectionQueues = 1) {i : ℕ} {g : Msg}
    (hg : x.generates[i]? = some g)
    (hsel : ∀ rail draws, selectsRail p n.topology →
      selectRail p n.topology env n.terminal x.terminal g = some (rail, draws) → rail = 0)
    (h : terminalEvent p n.topology env n.terminal x.terminal g = some y) :
    Inv n { x with terminal := y.state, generates := x.generates.eraseIdx i,
                   wakeUps := x.wakeUps ++ n.idles y.outs } := by
  obtain ⟨htype, hlt⟩ := hx.generates g (List.mem_of_getElem? hg)
  have hrail : g.railId = 0 := by omega
  obtain ⟨hother, hself⟩ := terminalEvent_generate hone htype hrail hsel h
  have herase : numFrom x.generates 0 = numFrom (x.generates.eraseIdx i) 0 + 1 := by
    rw [numFrom_eraseIdx hg, if_pos hrail]
  refine ⟨hx.base, hx.flags, fun w hw => ?_,
    fun g' hg' => hx.generates g' (List.mem_of_mem_eraseIdx hg'), fun q hq => ?_, fun q f hf => ?_⟩
  · rcases List.mem_append.1 hw with hw | hw
    · exact hx.wakeUps w hw
    · rcases hself with ⟨-, houts⟩ | ⟨-, houts⟩ <;> rw [houts] at hw
      · rw [List.mem_singleton.1 hw]
        exact ⟨rfl, 0, by omega, rfl⟩
      · cases hw
  · exact (hother q (by omega)).trans (hx.idle q hq)
  · have hcount := hx.count q f hf
    have hq : q < p.numInjectionQueues := (hx.flags q).1 (Option.isSome_iff_exists.2 ⟨f, hf⟩)
    obtain rfl : q = 0 := by omega
    -- the flag was not set, as the event was the token
    rcases hself with ⟨hflag, houts⟩ | ⟨hflag, houts⟩
    · simp only [tokens, herase, houts, hflag, LoopState.numFor_append_singleton, WakeUp.lane,
        Bool.false_eq_true, ↓reduceIte] at hcount ⊢
      omega
    · simp only [tokens, herase, houts, hflag, List.append_nil] at hcount ⊢
      omega

theorem Inv.event (hx : x.Inv n) {msg : Msg} (htype : msg.type ≠ .tGenerate)
    (h : terminalEvent p n.topology env n.terminal x.terminal msg = some y) :
    Inv n { x with terminal := y.state, wakeUps := x.wakeUps ++ n.idles y.outs } := by
  obtain ⟨hflag, houts⟩ | ⟨k, hne, h0, hother, houts⟩ := terminalEvent_released htype h
  · rw [houts, List.append_nil]
    refine ⟨hx.base, hx.flags, hx.wakeUps, hx.generates, fun q hq => ?_, fun q f hf => ?_⟩
    · exact (hflag q).trans (hx.idle q hq)
    · have hcount := hx.count q f hf
      simp only [tokens, hflag] at hcount ⊢
      exact hcount
  · have hk : k < p.numInjectionQueues := by
      by_contra hk
      exact hne (hx.idle k (by omega))
    rw [houts]
    refine ⟨hx.base, hx.flags, fun w hw => ?_, hx.generates, fun q hq => ?_, fun q f hf => ?_⟩
    · rcases List.mem_append.1 hw with hw | hw
      · exact hx.wakeUps w hw
      · rw [List.mem_singleton.1 hw]
        exact ⟨rfl, k, hk, rfl⟩
    · exact (hother q (by omega)).trans (hx.idle q hq)
    · have hcount := hx.count q f hf
      simp only [tokens, LoopState.numFor_append_singleton, WakeUp.lane, Bool.false_eq_true,
        ↓reduceIte, Lane.send.injEq] at hcount ⊢
      by_cases hq : q = k
      · subst hq
        simp only [h0, ↓reduceIte]
        omega
      · simp only [hother q hq, if_neg hq]
        exact hcount

end NicState

theorem nicMachine_inv {n : Nic p} {x x' : NicState} {l : NicLabel} (hx : x.Inv n)
    (hl : AsksOwnQueue n x l) (h : (nicMachine n).step x l = some x') : x'.Inv n := by
  cases l with
  | arrive m now poffset env =>
    simp only [nicMachine, Option.map_eq_some_iff, Prod.exists] at h
    obtain ⟨sv', res, h, rfl⟩ := h
    obtain ⟨sv, -, hnew⟩ := baseEvent_newMsg rfl h
    exact hx.arrive hnew
  | schedNext i m now poffset env =>
    simp only [nicMachine, Option.bind_eq_some_iff, Option.map_eq_some_iff, Prod.exists] at h
    obtain ⟨w, hw, sv', res, h, rfl⟩ := h
    have hd : ¬ (w.event m now poffset).Dropped n.base := by
      rintro ⟨hfreeze, -, hdropped⟩
      have hclean := (hx.wakeUps w (List.mem_of_getElem? hw)).1
      exact Bool.false_ne_true (hfreeze.symm.trans (hclean.symm.trans hdropped))
    exact hx.schedNext hw (baseEvent_schedNext rfl hd h)
  | generate i env =>
    simp only [nicMachine, Option.bind_eq_some_iff, Option.map_eq_some_iff] at h
    obtain ⟨g, hg, y, h, rfl⟩ := h
    exact hx.generate hl.1 hg (fun rail draws => hl.2 g rail draws hg) h
  | event msg env =>
    simp only [nicMachine, Option.ite_none_left_eq_some, Option.map_eq_some_iff] at h
    obtain ⟨htype, y, h, rfl⟩ := h
    exact hx.event htype h

/-- **The injection token is unique.**  In every state reached by arrivals of messages and
deliveries of events in any order, if every `T_GENERATE` is handled with one injection queue and
without moving the packet to another rail: the wake-ups and `T_GENERATE` events in flight for an
injection queue and its flag are together at most one, they are one while the loop of the queue is
running, and every wake-up is for a queue that exists. -/
theorem injection_token_unique (n : Nic p) (nicsPerRouter : ℕ) (params : BaseParams) (draws : ℕ)
    (servers : Option Servers) (ls : List NicLabel)
    (hls : (nicMachine n).Meets (AsksOwnQueue n) (.init p nicsPerRouter params draws servers) ls)
    {x : NicState}
    (h : (nicMachine n).run (.init p nicsPerRouter params draws servers) ls = some x) :
    x.TokenOk p :=
  (Machine.run_invariant_of_meets (fun _ _ _ => nicMachine_inv)
    (NicState.init_inv n nicsPerRouter params draws servers) hls h).tokenOk

/-! ### A NIC with two rails -/

/-- Packets of 64 bytes and two rails to the same router. -/
def twoRailParam (queues : ℕ) : Param :=
  { unevenParam with
    packetSize := 64, numRails := 2, numInjectionQueues := queues, planes_eq := .inl rfl }

/-- The two routers have a link and two links to a terminal each. -/
def twoRailTopology (queues : ℕ) (linkFailures : Bool) : Topology (twoRailParam queues) where
  connMan r := ⟨1, 0, 2, [⟨0, r, 1 - r, 0, false, 0, .connLocal⟩,
    ⟨1, r, r, 0, false, 0, .connTerminal⟩, ⟨2, r, r, 0, false, 1, .connTerminal⟩]⟩
  built r := ⟨[⟨0, r, 1 - r, 0, false, 0, .connLocal⟩, ⟨1, r, r, 0, false, 0, .connTerminal⟩,
    ⟨2, r, r, 0, false, 1, .connTerminal⟩], by
      simp [ConnMan.build, ConnMan.addConnection, ConnMan.usedPortsFor, ConnMan.portRange,
        twoRailParam, unevenParam, Param.intraGrpRadix, Param.globalRadix, Param.cnRadix]⟩
  injection term := [⟨0, term, term, 0, false, 0, .connInjection⟩,
    ⟨1, term, term, 0, false, 1, .connInjection⟩]
  linkFailures := linkFailures
  hasValidPath _ _ := true
  shortestDist _ _ := 0

/-- Terminal 0, with two servers; every other NIC is terminal 1. -/
def twoRailNic (queues : ℕ) (linkFailures : Bool) : Nic (twoRailParam queues) :=
  ⟨twoQueueCtx, twoRailTopology queues linkFailures, 0, fun _ => 1⟩

/-- Its state at the start. -/
def twoRailInit (queues : ℕ) : NicState := .init (twoRailParam queues) 1 twoQueueParams 0 none

/-- A message of two packets from a server arrives. -/
def serverSends (server : Lpid) : NicLabel :=
  .arrive { twoPacketMsg with req := { twoPacketMsg.req with srcLp := server } } 1 0
    ⟨1, default, fun _ => 0, fun _ => 0, fun _ => 0, false⟩

/-- The first `T_GENERATE` is delivered; the random numbers are `draw`. -/
def generateFirst (draw : ℕ) : NicLabel :=
  .generate 0 ⟨1, default, fun _ => draw, fun _ => 0, fun _ => 0, false⟩

/-- With two injection queues, the first packet of queue 0 makes a wake-up for queue 1; the message
that starts the loop of queue 1 then makes a second token.  With one queue, two rails and link
failures, the packet goes to rail 1 and the wake-up is for queue 1, which does not exist. -/
theorem injection_token_not_unique :
    (∃ x, (nicMachine (twoRailNic 2 false)).run (twoRailInit 2)
        [serverSends 0, generateFirst 0, serverSends 1] = some x ∧
      x.ns.loop? (.send 1) = some 1 ∧ x.tokens 1 = 2 ∧ ¬ x.TokenOk (twoRailParam 2)) ∧
    (∃ x, (nicMachine (twoRailNic 1 true)).run (twoRailInit 1) [serverSends 0, generateFirst 1] =
        some x ∧
      x.wakeUps = [⟨false, 1, false⟩] ∧ ¬ x.TokenOk (twoRailParam 1)) := by
  refine ⟨⟨_, rfl, rfl, rfl, fun h => ?_⟩, ⟨_, rfl, rfl, fun h => ?_⟩⟩
  · exact absurd (h.le_one 1 (by decide)) (by decide)
  · obtain ⟨q, hq, hlane⟩ := h.exists_queue ⟨false, 1, false⟩ List.mem_cons_self
    obtain rfl : 1 = q := Lane.send.inj hlane
    exact absurd hq (by decide)

/-- With one queue and no link failures the token goes round. -/
theorem injection_token_unique_twoRail : ∃ x,
    (nicMachine (twoRailNic 1 false)).run (twoRailInit 1) [serverSends 0, generateFirst 0] =
    some x ∧
      x.ns.loop? (.send 0) = some 1 ∧ x.tokens 0 = 1 := by
  refine ⟨_, rfl, rfl, (injection_token_unique (twoRailNic 1 false) 1 twoQueueParams 0 none
    [serverSends 0, generateFirst 0] ?_ rfl).eq_one 0 1 rfl (by decide)⟩
  exact ⟨trivial, fun _ _ => ⟨⟨rfl, fun _ _ _ _ h => absurd h (by decide)⟩, fun _ _ => trivial⟩⟩

end CodesSim.Dally
