import CodesSim.Base.Handover
import CodesSim.FatTree.Switch
import CodesSim.Lib.Network

/-!
# The network of a fat tree

The LPs of a fat tree and the events in flight (`Tree.system`).  The LP of a terminal is a base LP
with the terminal behind it (`Nic`): messages arrive at the base LP, which hands packets over with
`T_GENERATE` events, and the terminal asks for the next packet with an idle event.

In every reachable state (`Tree.inv_of_run`)

* the loop flag of a queue or a port is the number of its send events in flight, and at most one;
* the loop flag of an injection queue is the number of its tokens: wake-ups and `T_GENERATE` events
  in flight and the flag `issueIdle`;
* the table of incomplete messages has the population it counts.
-/

namespace CodesSim.FatTree

/-! ### The system -/

/-- A fat tree: the parameters, the links, and what the base LPs need. -/
structure Tree where
  p : Param
  topology : Topology
  base : ℕ → BaseCtx
  nicsPerRouter : ℕ
  baseParams : BaseParams
  /-- The static variables of the base LPs at the start. -/
  servers : ℕ → Option Servers
  /-- The terminal of an LP. -/
  terminalOf : Lpid → ℕ

/-- A base LP and the terminal behind it. -/
structure Nic where
  servers : Option Servers
  ns : BaseState
  terminal : Terminal

/-- The events of the network. -/
inductive Event where
  | newMsg (m : BaseMsg)
  | wakeUp (w : WakeUp)
  /-- An event of a terminal or a switch. -/
  | method (msg : Msg)

/-- What an LP finds around it: the surroundings of the network method, what the packet callback
returns, and the fields of a wake-up that nobody reads. -/
structure Around where
  env : Env
  poffset : STime
  fields : BaseMsg

/-- The state of an LP. -/
def LpState : LpName → Type
  | .terminal _ => Nic
  | .switch _ => Switch

/-- `fattree_packet_event`: the message with which a packet of a request is handed to terminal
`dest`. -/
def packetEvent (env : Env) (self : Lpid) (dest : ℕ) (req : Request) (packetSize : UInt64)
    (remoteEvent selfEvent : Option (List UInt8)) (isLastPckt : Bool) : Msg :=
  { env.blank with
    category := req.category
    finalDestGid := req.finalDestLp
    totalSize := req.msgSize.toNat
    senderLp := req.srcLp
    senderMnLp := self
    packetSize := packetSize.toNat
    travelStartTime := env.now
    type := .tGenerate
    destTerminalId := dest
    railId := req.queueOffset
    messageId := req.msgId.toNat
    isPull := req.isPull
    pullSize := req.pullSize.toNat
    msgStartTime := req.msgStartTime
    remoteEvent := if isLastPckt ∧ req.remoteEventSize > 0 then remoteEvent.getD [] else []
    localEvent := if isLastPckt ∧ req.selfEventSize > 0 then selfEvent.getD [] else [] }

namespace Tree

variable (T : Tree)

/-- The event that an output of the base LP of terminal `n` is for this network, if it is one. -/
def baseFlight (env : Env) (n : ℕ) : BaseOut → Option (LpName × Event)
  | .payload .. => none
  | .newMsg _ m => some (.terminal n, .newMsg m)
  | .schedNext _ isFromRemote queue =>
    some (.terminal n, .wakeUp ⟨isFromRemote, queue, (T.base n).isFreezingOn⟩)
  | .call (.packet req _ size _ remote self last _) =>
    some (.terminal n, .method
      (packetEvent env (T.base n).gid (T.terminalOf req.destMnLp) req size remote self last))
  | .call (.recvMsg ..) => none

/-- The event that an output of an LP is for this network, if it is one.  The idle event is a
`MN_BASE_SCHED_NEXT` (`model_net_method_idle_event2`). -/
def flight (n : ℕ) : Out → Option (LpName × Event)
  | .event dest _ msg => some (dest, .method msg)
  | .idle _ queue => some (.terminal n, .wakeUp ⟨false, queue, (T.base n).isFreezingOn⟩)
  | .server .. | .pull .. => none

/-- An event of the base LP of terminal `n`. -/
def handleBase (ω : Around) (n : ℕ) (x : Nic) (e : BaseEvent) :
    Option (Nic × List (LpName × Event)) :=
  (baseEvent (T.base n) x.servers x.ns e).map fun y =>
    ({ x with servers := y.1, ns := y.2.state }, y.2.outs.filterMap (T.baseFlight ω.env n))

/-- The event handler of an LP. -/
def handle (ω : Around) : ∀ i, LpState i → Event → Option (LpState i × List (LpName × Event))
  | .terminal n, (x : Nic), .newMsg m => T.handleBase ω n x ⟨.newMsg, m, ω.env.now, ω.poffset⟩
  | .terminal n, (x : Nic), .wakeUp w => T.handleBase ω n x (w.event ω.fields ω.env.now ω.poffset)
  | .terminal n, (x : Nic), .method msg =>
    (terminalEvent T.p ω.env n T.topology x.terminal msg).map fun r =>
      ({ x with terminal := r.state }, r.outs.filterMap (T.flight n))
  | .switch n, (s : Switch), .method msg =>
    (switchEvent T.p ω.env (T.topology.conf n) n s msg).map fun r =>
      (r.state, r.outs.filterMap (T.flight n))
  | .switch _, _, _ => none

/-- The LPs of a fat tree. -/
def system : LpSystem LpState Event Around := ⟨T.handle⟩

/-- An LP before the first event. -/
def initLp : ∀ i, LpState i
  | .terminal n => (⟨T.servers n, .init .fattree T.nicsPerRouter T.baseParams 0, .init⟩ : Nic)
  | .switch _ => Switch.init

/-- The network before the first event. -/
def init : Net LpState Event := ⟨T.initLp, []⟩

/-- From outside come messages for base LPs. -/
def FromOutside : NetLabel LpName Event Around → Prop
  | .inject (.terminal _) (.newMsg _) _ => True
  | .inject _ _ _ => False
  | .deliver _ _ => True

end Tree

/-! ### Loops, tokens and tables -/

/-- A message keeps the send loop of a queue or a port going. -/
def Msg.IsSend (msg : Msg) (v : ℕ) : Prop :=
  (msg.type = .tSend ∨ msg.type = .sSend) ∧ msg.vcIndex = v

instance (msg : Msg) (v : ℕ) : Decidable (msg.IsSend v) := inferInstanceAs (Decidable (_ ∧ _))

/-- The send events for the queue or port `v` of LP `i`. -/
def sendAt (i : LpName) (v : ℕ) : LpName → Event → ℕ
  | d, .method msg => if d = i ∧ msg.IsSend v then 1 else 0
  | _, _ => 0

/-- The tokens of injection queue `q` of LP `i` among the events. -/
def tokenAt (i : LpName) (q : ℕ) : LpName → Event → ℕ
  | d, .wakeUp w => if d = i ∧ w.lane = .send q then 1 else 0
  | d, .method msg => if d = i ∧ msg.type = .tGenerate ∧ msg.railId = q then 1 else 0
  | _, .newMsg _ => 0

/-- The loop flag of a queue or a port. -/
def loopFlag : ∀ i, LpState i → ℕ → ℕ
  | .terminal _, (x : Nic), v => x.terminal.inSendLoop v
  | .switch _, (s : Switch), v => s.inSendLoop v

/-- The loop flag of an injection queue in its base LP; 0 if there is no such queue. -/
def Nic.baseLoop (x : Nic) (q : ℕ) : ℕ := (x.ns.loop? (.send q)).getD 0

/-- The loop flag of an injection queue in its base LP. -/
def baseFlag : ∀ i, LpState i → ℕ → ℕ
  | .terminal _, (x : Nic), q => x.baseLoop q
  | .switch _, _, _ => 0

/-- The flag `issueIdle` of an injection queue. -/
def idleFlag : ∀ i, LpState i → ℕ → ℕ
  | .terminal _, (x : Nic), q => x.terminal.issueIdle q
  | .switch _, _, _ => 0

/-- The table of incomplete messages. -/
structure TableOk (s : Terminal) : Prop where
  keys : ∃ l : List RankKey, l.Nodup ∧ (∀ k, k ∈ l ↔ s.rankTbl k ≠ none) ∧ l.length = s.rankTblPop
  pop_lt : s.rankTblPop < hashTableSize
  pos : ∀ k e, s.rankTbl k = some e → 1 ≤ e.numChunks

/-- An LP is as it should be by itself: its base LP, its loop flags and its table. -/
def LpOk : ∀ i, LpState i → Prop
  | .terminal _, (x : Nic) => x.ns.Sorted ∧ x.ns.netId = .fattree ∧ TableOk x.terminal ∧
      ∀ v, x.terminal.inSendLoop v ≤ 1
  | .switch _, (s : Switch) => ∀ v, s.inSendLoop v ≤ 1

/-- A wake-up is for an injection queue and not from a time when the network was frozen. -/
def Tree.EventOk (T : Tree) : LpName → Event → Prop
  | .terminal n, .wakeUp w =>
    w.createdInSurrogate = (T.base n).isFreezingOn ∧ w.isFromRemote = false
  | _, _ => True

/-- The invariant of the network. -/
structure Tree.Inv (T : Tree) (net : Net LpState Event) : Prop where
  lps : ∀ i, LpOk i (net.nodes i)
  events : ∀ x ∈ net.inFlight, T.EventOk x.1 x.2
  loops : ∀ i v, loopFlag i (net.nodes i) v = LpSystem.flightSum (sendAt i v) net.inFlight
  tokens : ∀ i q, baseFlag i (net.nodes i) q =
    LpSystem.flightSum (tokenAt i q) net.inFlight + idleFlag i (net.nodes i) q
  token_le : ∀ i q, baseFlag i (net.nodes i) q ≤ 1

/-! ### What an event does -/

/-- An event sends nothing on: neither a loop nor a token. -/
def Event.Harmless : Event → Prop
  | .newMsg _ => True
  | .wakeUp _ => False
  | .method msg => msg.type ≠ .tSend ∧ msg.type ≠ .sSend ∧ msg.type ≠ .tGenerate

/-- What LP `i` may send: loops and tokens stay with it. -/
def Tree.Sends (T : Tree) (i : LpName) (x : LpName × Event) : Prop :=
  T.EventOk x.1 x.2 ∧ (x.1 = i ∨ x.2.Harmless)

/-- What an event does to the loops and the tokens of its LP. -/
structure Tree.Effect (T : Tree) (i : LpName) (s s' : LpState i) (e : Event)
    (outs : List (LpName × Event)) : Prop where
  lp : LpOk i s'
  sends : ∀ x ∈ outs, T.Sends i x
  loops : ∀ v, loopFlag i s' v + sendAt i v i e =
    loopFlag i s v + LpSystem.flightSum (sendAt i v) outs
  tokens : ∀ q, baseFlag i s' q + tokenAt i q i e + idleFlag i s q =
    baseFlag i s q + LpSystem.flightSum (tokenAt i q) outs + idleFlag i s' q
  token_le : ∀ q, baseFlag i s' q ≤ 1

/-- What an LP finds when it handles an event: its flags count the event. -/
structure Tree.Ready (T : Tree) (i : LpName) (s : LpState i) (e : Event) : Prop where
  lp : LpOk i s
  event : T.EventOk i e
  loop : ∀ v, sendAt i v i e ≤ loopFlag i s v
  token : ∀ q, tokenAt i q i e + idleFlag i s q ≤ baseFlag i s q
  token_le : ∀ q, baseFlag i s q ≤ 1

variable {T : Tree} {ω : Around} {i : LpName} {n : ℕ}

open LpSystem (flightSum flightSum_nil flightSum_cons flightSum_append)

theorem flightSum_of_sends {outs : List (LpName × Event)} (h : ∀ x ∈ outs, T.Sends i x)
    {j : LpName} (hj : j ≠ i) (v : ℕ) :
    flightSum (sendAt j v) outs = 0 ∧ flightSum (tokenAt j v) outs = 0 := by
  have hzero : ∀ ψ : LpName → Event → ℕ, (∀ x ∈ outs, ψ x.1 x.2 = 0) → flightSum ψ outs = 0 := by
    intro ψ hψ
    refine List.sum_eq_zero fun y hy => ?_
    obtain ⟨x, hx, rfl⟩ := List.mem_map.1 hy
    exact hψ x hx
  have hcases : ∀ x ∈ outs, sendAt j v x.1 x.2 = 0 ∧ tokenAt j v x.1 x.2 = 0 := by
    rintro ⟨d, e⟩ hx
    rcases (h _ hx).2 with rfl | he
    · cases e <;> simp [sendAt, tokenAt, Ne.symm hj]
    · cases e with
      | newMsg m => exact ⟨rfl, rfl⟩
      | wakeUp w => exact he.elim
      | method msg => simp [sendAt, tokenAt, Msg.IsSend, he.1, he.2.1, he.2.2]
  exact ⟨hzero _ fun x hx => (hcases x hx).1, hzero _ fun x hx => (hcases x hx).2⟩

theorem Tree.Inv.ready {net : Net LpState Event} (hinv : T.Inv net) {d : LpName} {e : Event}
    (he : (d, e) ∈ net.inFlight) : T.Ready d (net.nodes d) e := by
  refine ⟨hinv.lps d, hinv.events _ he, fun v => ?_, fun q => ?_, hinv.token_le d⟩
  · rw [hinv.loops]
    exact LpSystem.le_flightSum (sendAt d v) he
  · rw [hinv.tokens]
    exact Nat.add_le_add_right (LpSystem.le_flightSum (tokenAt d q) he) _

/-- **One step.**  If every handler has the effect that its LP is ready for, the invariant is
preserved. -/
theorem Tree.Inv.step {net net' : Net LpState Event} {l : NetLabel LpName Event Around}
    (hinv : T.Inv net) (hl : FromOutside l)
    (heffect : ∀ ω i s e s' outs, T.Ready i s e → T.handle ω i s e = some (s', outs) →
      T.Effect i s s' e outs)
    (h : T.system.machine.step net l = some net') : T.Inv net' := by
  obtain ⟨ω, d, e, s', outs, rest, hh, hcases⟩ := LpSystem.step_cases h
  have hflight := fun ψ : LpName → Event → ℕ => LpSystem.flightSum_step ψ hcases
  -- an event from outside is neither a loop nor a token
  have hweight : (∀ i v, LpSystem.weight (sendAt i v) l = 0) ∧
      ∀ i q, LpSystem.weight (tokenAt i q) l = 0 := by
    cases l with
    | deliver i ω => exact ⟨fun _ _ => rfl, fun _ _ => rfl⟩
    | inject d e ω =>
      cases d <;> cases e <;> first | exact hl.elim | exact ⟨fun _ _ => rfl, fun _ _ => rfl⟩
  have hsend : ∀ i v, flightSum (sendAt i v) net.inFlight =
      sendAt i v d e + flightSum (sendAt i v) rest := by
    intro i v
    have := hflight (sendAt i v)
    rwa [hweight.1, add_zero] at this
  have htoken : ∀ i q, flightSum (tokenAt i q) net.inFlight =
      tokenAt i q d e + flightSum (tokenAt i q) rest := by
    intro i q
    have := hflight (tokenAt i q)
    rwa [hweight.2, add_zero] at this
  have hevent : T.EventOk d e ∧ ∀ x ∈ rest, x ∈ net.inFlight := by
    obtain ⟨rfl, rfl⟩ | ⟨⟨i, rfl⟩, hperm⟩ := hcases
    · cases d <;> cases e <;> first | exact hl.elim | exact ⟨trivial, fun x hx => hx⟩
    · exact ⟨hinv.events _ (hperm.mem_iff.2 List.mem_cons_self),
        fun x hx => hperm.mem_iff.2 (List.mem_cons_of_mem _ hx)⟩
  have hready : T.Ready d (net.nodes d) e := by
    refine ⟨hinv.lps d, hevent.1, fun v => ?_, fun q => ?_, hinv.token_le d⟩
    · have := hinv.loops d v
      rw [hsend] at this
      omega
    · have := hinv.tokens d q
      rw [htoken] at this
      omega
  have heff := heffect ω d _ e s' outs hready hh.handle
  have hself : ∀ i, i ≠ d → net'.nodes i = net.nodes i := fun i hi => hh.node_of_ne hi
  refine ⟨fun i => ?_, fun x hx => ?_, fun i v => ?_, fun i q => ?_, fun i q => ?_⟩
  · by_cases hi : i = d
    · subst hi
      rw [hh.node_self]
      exact heff.lp
    · rw [hself i hi]
      exact hinv.lps i
  · rw [hh.inFlight] at hx
    rcases List.mem_append.1 hx with hx | hx
    · exact hinv.events x (hevent.2 x hx)
    · exact (heff.sends x hx).1
  · have h1 := hinv.loops i v
    rw [hsend] at h1
    rw [hh.inFlight, flightSum_append]
    by_cases hi : i = d
    · subst hi
      have h2 := heff.loops v
      rw [hh.node_self]
      omega
    · have h2 := (flightSum_of_sends heff.sends hi v).1
      have h3 : sendAt i v d e = 0 := by cases e <;> simp [sendAt, Ne.symm hi]
      rw [hself i hi]
      omega
  · have h1 := hinv.tokens i q
    rw [htoken] at h1
    rw [hh.inFlight, flightSum_append]
    by_cases hi : i = d
    · subst hi
      have h2 := heff.tokens q
      rw [hh.node_self]
      omega
    · have h2 := (flightSum_of_sends heff.sends hi q).2
      have h3 : tokenAt i q d e = 0 := by cases e <;> simp [tokenAt, Ne.symm hi]
      rw [hself i hi]
      omega
  · by_cases hi : i = d
    · subst hi
      rw [hh.node_self]
      exact heff.token_le q
    · rw [hself i hi]
      exact hinv.token_le i q

end CodesSim.FatTree
